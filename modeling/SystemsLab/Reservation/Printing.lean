import SystemsLab.Reservation.Server
import SystemsLab.Reservation.Client
import SystemsLab.CLib.Decimals

namespace SystemsLab.Reservation

open CLib

def newline : UInt8 := 10

structure Prints where
  out : Bytes
  err : Bytes

namespace Prints

def onOut (text : Bytes) : Prints := ⟨text ++ [newline], []⟩

def onErr (text : Bytes) : Prints := ⟨[], text ++ [newline]⟩

def OneLine (p : Prints) : Prop := ∃ text, newline ∉ text ∧ (p = onOut text ∨ p = onErr text)

end Prints

open Prints

def shown : Option Bytes → Bytes
  | none => ascii "(null)"
  | some b => cstr b

def signed (code : Int32) : Bytes :=
  if code < 0 then 45 :: decimal (-code.toInt).toNat else decimal code.toInt.toNat

def unknownCode (name : Bytes) (code : Int32) : Prints :=
  onErr (ascii "Unknown " ++ name ++ ascii " error code: " ++ signed code)

def Prints.Known (p : Prints) : Prop := p.OneLine ∧ ∀ name code, p ≠ unknownCode name code

def userPrint (r : Request) (text : String) : Bytes := ascii "User " ++ shown r.username ++ ascii text

def seatPrint (r : Request) (text : String) : Bytes := ascii "Seat " ++ shown r.data ++ ascii text

def printLoginResponse (r : Request) (response : Response) (active : Option Bytes) : Prints :=
  if response.code = LoginErrorCode.success.code then onOut (userPrint r " logged in successfully!")
  else if response.code = LoginErrorCode.activeUser.code then onErr (userPrint r " is already logged in!")
  else if response.code = LoginErrorCode.activeClient.code then
    onErr (ascii "Client is already serving user " ++ shown active ++ ascii "!")
  else if response.code = LoginErrorCode.incorrectPassword.code then
    onErr (userPrint r " provided incorrect password!")
  else if response.code = LoginErrorCode.noPassword.code then
    onErr (userPrint r " did not provide a password!")
  else if response.code = LoginErrorCode.noUsernameAndPassword.code then
    onErr (ascii "No username and password provided for login!")
  else unknownCode (ascii "login") response.code

def printBookResponse (r : Request) (response : Response) : Prints :=
  if response.code = BookErrorCode.success.code then
    onOut (seatPrint r " was booked successfully by user " ++ shown r.username ++ ascii "!")
  else if response.code = BookErrorCode.userNotLoggedIn.code then onErr (userPrint r " is not logged in!")
  else if response.code = BookErrorCode.seatUnavailable.code then
    onErr (seatPrint r " is unavailable for booking!")
  else if response.code = BookErrorCode.seatOutOfRange.code then
    onErr (seatPrint r " is out of range [1,100]!")
  else if response.code = BookErrorCode.noData.code then
    onErr (ascii "Please enter a seat number to book!")
  else unknownCode (ascii "book") response.code

/-- The numbers that `data` holds, read as an array of `pa3_seat_t`. -/
def seatList (response : Response) : List ℕ :=
  (List.range (response.dataSize.toNat / seatNumberSize)).map fun i =>
    ofLeBytes (((response.data.getD []).drop (seatNumberSize * i)).take seatNumberSize)

def printConfirmBookingResponse (r : Request) (response : Response) : Prints :=
  if response.code = ConfirmBookingErrorCode.success.code then
    if 0 < response.dataSize then
      onOut ((if r.text = Call.available then ascii "Available seats: "
          else if r.text = Call.booked then ascii "Booked seats by user " ++ shown r.username ++ ascii ": "
          else []) ++
        (ascii ", ").intercalate ((seatList response).map decimal))
    else onOut (ascii "Booking confirmed, but no seats available!")
  else if response.code = ConfirmBookingErrorCode.userNotLoggedIn.code then
    onErr (userPrint r " is not logged in!")
  else if response.code = ConfirmBookingErrorCode.invalidData.code then
    onErr (ascii "Invalid data provided for booking confirmation!")
  else if response.code = ConfirmBookingErrorCode.noData.code then
    onErr (ascii "Please enter 'available' or 'booked' for booking confirmation!")
  else unknownCode (ascii "confirm booking") response.code

def printCancelBookingResponse (r : Request) (response : Response) : Prints :=
  if response.code = CancelBookingErrorCode.success.code then
    onOut (ascii "Booking for seat " ++ shown r.data ++ ascii " was canceled successfully by user " ++
      shown r.username ++ ascii "!")
  else if response.code = CancelBookingErrorCode.userNotLoggedIn.code then
    onErr (userPrint r " is not logged in!")
  else if response.code = CancelBookingErrorCode.seatNotBookedByUser.code then
    onErr (seatPrint r " was not booked by user " ++ shown r.username ++ ascii "!")
  else if response.code = CancelBookingErrorCode.seatOutOfRange.code then
    onErr (seatPrint r " is out of range [1,100]!")
  else if response.code = CancelBookingErrorCode.noData.code then
    onErr (ascii "Please enter a seat number to cancel booking!")
  else unknownCode (ascii "cancel booking") response.code

def printLogoutResponse (r : Request) (response : Response) : Prints :=
  if response.code = LogoutErrorCode.success.code then onOut (userPrint r " logged out successfully!")
  else if response.code = LogoutErrorCode.userNotFound.code then onErr (userPrint r " not found!")
  else if response.code = LogoutErrorCode.userNotLoggedIn.code then
    onErr (userPrint r " is not logged in!")
  else unknownCode (ascii "logout") response.code

def times (n : ℕ) : Bytes := decimal n ++ if n = 1 then ascii " time" else ascii " times"

def statsField (response : Response) (i : ℕ) : ℕ :=
  ofLeBytes (((response.data.getD []).drop (8 * i)).take 8)

def printQueryResponse (r : Request) (response : Response) : Prints :=
  if response.code = QueryErrorCode.success.code then
    if 0 < response.dataSize then
      onOut (ascii "Seat " ++ decimal (statsField response 0) ++ ascii " was booked " ++
        times (statsField response 1) ++ ascii " and canceled " ++ times (statsField response 2) ++
          ascii "!")
    else ⟨[], []⟩
  else if response.code = QueryErrorCode.seatOutOfRange.code then
    onErr (seatPrint r " is out of range [1,100]!")
  else if response.code = QueryErrorCode.noData.code then
    onErr (ascii "Please enter a seat number to query!")
  else unknownCode (ascii "query") response.code

/-- What `handle_response` prints, while `active` is the active user. -/
def printResponse (r : Request) (response : Response) (active : Option Bytes) : Prints :=
  if r.action = Action.login.code then printLoginResponse r response active
  else if r.action = Action.book.code then printBookResponse r response
  else if r.action = Action.confirmBooking.code then printConfirmBookingResponse r response
  else if r.action = Action.cancelBooking.code then printCancelBookingResponse r response
  else if r.action = Action.logout.code then printLogoutResponse r response
  else if r.action = Action.query.code then printQueryResponse r response
  else onErr (ascii "Invalid action received!")

def ParsingError.message (active : Option Bytes) : ParsingError → Bytes
  | noRequest => ascii "Request pointer is nullptr!"
  | noAction => ascii "Please enter the action!"
  | noData => []
  | notLoggedIn => ascii "User is not logged in!"
  | alreadyLoggedIn => ascii "Client is already serving user " ++ shown active ++ ascii "!"
  | invalidAction => ascii "Invalid action received!"

/-- `CLEAR_SCREEN` -/
def clearScreen : Prints := ⟨27 :: ascii "[H" ++ 27 :: ascii "[J", []⟩

def printEvaluation (input : Bytes) (active : Option Bytes) : List Prints :=
  match parseRequest input active with
  | .error e => [onErr (e.message active)]
  | .ok r => if r.action = Action.clearScreen.code then [clearScreen] else []

def Action.Expects (response : Response) : Action → Prop
  | login => ∃ e : LoginErrorCode, response.code = e.code
  | book => ∃ e : BookErrorCode, response.code = e.code
  | confirmBooking => ∃ e : ConfirmBookingErrorCode, response.code = e.code
  | cancelBooking => ∃ e : CancelBookingErrorCode, response.code = e.code
  | logout => response.code = LogoutErrorCode.success.code
  | query => ∃ e : QueryErrorCode, response.code = e.code ∧ (e = .success → 0 < response.dataSize)
  | _ => True

def Expected (r : Request) (response : Response) : Prop :=
  ∀ a : Action, r.action = a.code → a.Expects response

structure Worded (r : Request) : Prop where
  username : newline ∉ shown r.username
  data : newline ∉ shown r.data

variable {r : Request} {response : Response} {active : Option Bytes} {a : Action} {s token rest text : Bytes}

lemma expected_of (ha : r.action = a.code) (h : a.Expects response) : Expected r response := by
  intro b hb
  obtain rfl : a = b := Action.code_injective (ha.symm.trans hb)
  exact h

section Lines

lemma not_mem_digits {n : ℕ} : newline ∉ decimal n := by
  intro h
  exact absurd ((digits_decimal n).isDigit newline h) (by decide)

lemma not_mem_times (n : ℕ) : newline ∉ times n := by
  rw [times, List.mem_append]
  rintro (h | h)
  · exact not_mem_digits h
  · split_ifs at h
    · exact absurd h (by decide)
    · exact absurd h (by decide)

lemma not_mem_intercalate {sep : Bytes} {texts : List Bytes} (hsep : newline ∉ sep)
    (h : ∀ text ∈ texts, newline ∉ text) : newline ∉ sep.intercalate texts := by
  induction texts with
  | nil => exact List.not_mem_nil
  | cons text texts ih =>
    have htext := h text List.mem_cons_self
    have htexts := ih fun text' htext' => h text' (List.mem_cons_of_mem _ htext')
    cases texts with
    | nil => rwa [List.intercalate_singleton]
    | cons text' texts =>
      rw [List.intercalate_cons_cons, List.mem_append, List.mem_append]
      rintro ((hmem | hmem) | hmem)
      · exact htext hmem
      · exact hsep hmem
      · exact htexts hmem

lemma known_onOut (h : newline ∉ text) : (onOut text).Known := by
  refine ⟨⟨text, h, .inl rfl⟩, fun name code he => ?_⟩
  have herr : [] = _ ++ [newline] := congrArg Prints.err he
  exact absurd herr.symm (List.append_ne_nil_of_right_ne_nil _ (List.cons_ne_nil _ _))

lemma known_onErr (h : newline ∉ text) (hfirst : (ascii "Unknown ").isPrefixOf text = false) :
    (onErr text).Known := by
  refine ⟨⟨text, h, .inr rfl⟩, fun name code he => ?_⟩
  have htext := List.append_cancel_right (congrArg Prints.err he)
  have hprefix : ascii "Unknown " <+: text := by
    rw [htext, List.append_assoc, List.append_assoc]
    exact List.prefix_append _ _
  rw [List.isPrefixOf_iff_prefix.mpr hprefix] at hfirst
  cases hfirst

lemma not_mem_userPrint (h : Worded r) {text : String} (htext : newline ∉ ascii text) :
    newline ∉ userPrint r text := by
  rw [userPrint, List.mem_append, List.mem_append]
  rintro ((hmem | hmem) | hmem)
  · exact absurd hmem (by decide)
  · exact h.username hmem
  · exact htext hmem

lemma not_mem_seatPrint (h : Worded r) {text : String} (htext : newline ∉ ascii text) :
    newline ∉ seatPrint r text := by
  rw [seatPrint, List.mem_append, List.mem_append]
  rintro ((hmem | hmem) | hmem)
  · exact absurd hmem (by decide)
  · exact h.data hmem
  · exact htext hmem

lemma known_login (hw : Worded r) (hactive : newline ∉ shown active)
    (h : Action.login.Expects response) : (printLoginResponse r response active).Known := by
  obtain ⟨e, he⟩ := h
  rw [printLoginResponse, he]
  cases e with
  | success => exact known_onOut (not_mem_userPrint hw (by decide))
  | activeUser => exact known_onErr (not_mem_userPrint hw (by decide)) rfl
  | activeClient =>
    exact known_onErr (List.not_mem_append (List.not_mem_append (by decide) hactive) (by decide)) rfl
  | incorrectPassword => exact known_onErr (not_mem_userPrint hw (by decide)) rfl
  | noPassword => exact known_onErr (not_mem_userPrint hw (by decide)) rfl
  | noUsernameAndPassword => exact known_onErr (by decide) rfl

lemma known_book (hw : Worded r) (h : Action.book.Expects response) :
    (printBookResponse r response).Known := by
  obtain ⟨e, he⟩ := h
  rw [printBookResponse, he]
  cases e with
  | success =>
    apply known_onOut
    exact List.not_mem_append (List.not_mem_append (not_mem_seatPrint hw (by decide)) hw.username) (by decide)
  | userNotLoggedIn => exact known_onErr (not_mem_userPrint hw (by decide)) rfl
  | seatUnavailable => exact known_onErr (not_mem_seatPrint hw (by decide)) rfl
  | seatOutOfRange => exact known_onErr (not_mem_seatPrint hw (by decide)) rfl
  | noData => exact known_onErr (by decide) rfl

lemma known_confirmBooking (hw : Worded r) (h : Action.confirmBooking.Expects response) :
    (printConfirmBookingResponse r response).Known := by
  obtain ⟨e, he⟩ := h
  rw [printConfirmBookingResponse, he]
  cases e with
  | success =>
    rw [if_pos rfl]
    by_cases hsize : 0 < response.dataSize
    · rw [if_pos hsize]
      apply known_onOut
      apply List.not_mem_append
      · split_ifs
        · decide
        · exact List.not_mem_append (List.not_mem_append (by decide) hw.username) (by decide)
        · exact List.not_mem_nil
      · apply not_mem_intercalate (by decide)
        intro text htext
        obtain ⟨n, -, rfl⟩ := List.mem_map.mp htext
        exact not_mem_digits
    · rw [if_neg hsize]
      exact known_onOut (by decide)
  | userNotLoggedIn => exact known_onErr (not_mem_userPrint hw (by decide)) rfl
  | invalidData => exact known_onErr (by decide) rfl
  | noData => exact known_onErr (by decide) rfl

lemma known_cancelBooking (hw : Worded r) (h : Action.cancelBooking.Expects response) :
    (printCancelBookingResponse r response).Known := by
  obtain ⟨e, he⟩ := h
  rw [printCancelBookingResponse, he]
  cases e with
  | success =>
    apply known_onOut
    apply List.not_mem_append _ (by decide)
    exact List.not_mem_append (List.not_mem_append (List.not_mem_append (by decide) hw.data) (by decide))
      hw.username
  | userNotLoggedIn => exact known_onErr (not_mem_userPrint hw (by decide)) rfl
  | seatNotBookedByUser =>
    apply known_onErr _ rfl
    exact List.not_mem_append (List.not_mem_append (not_mem_seatPrint hw (by decide)) hw.username) (by decide)
  | seatOutOfRange => exact known_onErr (not_mem_seatPrint hw (by decide)) rfl
  | noData => exact known_onErr (by decide) rfl

lemma known_query (hw : Worded r) (h : Action.query.Expects response) :
    (printQueryResponse r response).Known := by
  obtain ⟨e, he, hstats⟩ := h
  rw [printQueryResponse, he]
  cases e with
  | success =>
    rw [if_pos rfl, if_pos (hstats rfl)]
    apply known_onOut
    apply List.not_mem_append _ (by decide)
    apply List.not_mem_append _ (not_mem_times _)
    apply List.not_mem_append _ (by decide)
    apply List.not_mem_append _ (not_mem_times _)
    exact List.not_mem_append (List.not_mem_append (by decide) not_mem_digits) (by decide)
  | seatOutOfRange => exact known_onErr (not_mem_seatPrint hw (by decide)) rfl
  | noData => exact known_onErr (by decide) rfl

lemma known_printResponse (ha : Asked active r) (hw : Worded r) (hactive : newline ∉ shown active)
    (h : Expected r response) : (printResponse r response active).Known := by
  rw [printResponse]
  split_ifs with h₁ h₂ h₃ h₄ h₅ h₆
  · exact known_login hw hactive (h .login h₁)
  · exact known_book hw (h .book h₂)
  · exact known_confirmBooking hw (h .confirmBooking h₃)
  · exact known_cancelBooking hw (h .cancelBooking h₄)
  · have hsuccess : response.code = LogoutErrorCode.success.code := h .logout h₅
    rw [printLogoutResponse, if_pos hsuccess]
    exact known_onOut (not_mem_userPrint hw (by decide))
  · exact known_query hw (h .query h₆)
  · rcases ha.known with hk | hk | hk | hk | hk | hk
    · exact absurd hk h₁
    · exact absurd hk h₆
    · exact absurd hk h₂
    · exact absurd hk h₃
    · exact absurd hk h₄
    · exact absurd hk h₅

end Lines

section Words

lemma not_delim_token {delim : UInt8 → Bool} (h : strtokR delim s = some (token, rest)) :
    ∀ c ∈ token, delim c = false := by
  simp only [strtokR] at h
  split_ifs at h
  simp only [Option.some.injEq, Prod.mk.injEq] at h
  obtain ⟨rfl, -⟩ := h
  intro c hc
  simpa using List.mem_takeWhile_imp hc

lemma not_mem_strdup (h : newline ∉ token) : newline ∉ shown (some (strdup token)) := by
  rw [shown, strdup, cstr]
  intro hmem
  rcases List.mem_append.mp ((List.takeWhile_sublist _).subset hmem) with hmem | hmem
  · exact h ((List.takeWhile_sublist _).subset hmem)
  · exact absurd hmem (by decide)

lemma not_mem_token (h : strtokR delimiter s = some (token, rest)) : newline ∉ token := by
  intro hmem
  exact absurd (not_delim_token h newline hmem) (by decide)

lemma Worded.setUsername (h : Worded r) (htoken : newline ∉ token) : Worded (r.setUsername token) :=
  ⟨not_mem_strdup htoken, h.data⟩

lemma Worded.setData (h : Worded r) (htoken : newline ∉ token) : Worded (r.setData token) :=
  ⟨h.username, not_mem_strdup htoken⟩

lemma worded_default (action : Int32) : Worded { defaultRequest with action } := by
  have hnull : newline ∉ shown none := by decide
  exact ⟨hnull, hnull⟩

lemma parseAction_worded (hactive : ∀ name, active = some name → newline ∉ name)
    (h : parseAction token active = .ok (a, r)) : Worded r := by
  simp only [parseAction] at h
  split at h
  · cases h
  · next b hb =>
    have hdefault := worded_default b.code
    cases b with
    | login =>
      simp only at h
      split_ifs at h
      cases h
      exact hdefault
    | exit | clearScreen | query =>
      cases h
      exact hdefault
    | termination | book | confirmBooking | cancelBooking | logout =>
      simp only at h
      cases hname : active with
      | none => simp [hname] at h
      | some name =>
        simp only [hname] at h
        cases h
        exact hdefault.setUsername (hactive name hname)

lemma parseRequest_worded {input : Bytes} (hactive : ∀ name, active = some name → newline ∉ name)
    (h : parseRequest input active = .ok r) : Worded r := by
  simp only [parseRequest] at h
  split at h
  · cases h
  · next token rest htoken =>
    split at h
    · cases h
    · next a r₀ haction =>
      have hw := parseAction_worded hactive haction
      split at h
      · cases h
        exact hw
      · next token rest htoken =>
        split_ifs at h with hlogin
        · split at h
          · cases h
            exact hw.setUsername (not_mem_token htoken)
          · next token rest' htoken' =>
            cases h
            exact (hw.setUsername (not_mem_token htoken)).setData (not_mem_token htoken')
        · cases h
          exact hw.setData (not_mem_token htoken)

lemma not_mem_shown (hactive : ∀ name, active = some name → newline ∉ name) : newline ∉ shown active := by
  cases active with
  | none => decide
  | some name => exact fun h => hactive name rfl ((List.takeWhile_sublist _).subset h)

lemma not_mem_handleResponse (hw : Worded r) (hlogin : r.action = Action.login.code →
      response.code = LoginErrorCode.success.code → r.hasUsername = true)
    (hactive : ∀ name, active = some name → newline ∉ name) :
    ∀ name, handleResponse r response active = some name → newline ∉ name := by
  intro name h
  simp only [handleResponse, handleLoginResponse, handleLogoutResponse] at h
  split_ifs at h with h₁ h₂
  · cases h
    obtain ⟨usernameLength, dataSize, action, username, data⟩ := r
    cases username with
    | none => exact absurd (hlogin h₁ h₂) (by simp [Request.hasUsername])
    | some b => exact hw.username
  all_goals exact hactive name h

/-- A line whose first word is `exit` or `quit`. -/
def exits (line : Bytes) : Bool :=
  match strtokR delimiter line with
  | some (token, _) => toAction token == some .exit
  | none => false

lemma parseAction_action (h : parseAction token active = .ok (a, r)) :
    toAction token = some a ∧ r.action = a.code := by
  simp only [parseAction] at h
  split at h
  · cases h
  · next b hb =>
    cases b with
    | login =>
      simp only at h
      split_ifs at h
      cases h
      exact ⟨hb, rfl⟩
    | exit | clearScreen | query =>
      cases h
      exact ⟨hb, rfl⟩
    | termination | book | confirmBooking | cancelBooking | logout =>
      simp only at h
      cases hname : active with
      | none => simp [hname] at h
      | some name =>
        simp only [hname] at h
        cases h
        exact ⟨hb, rfl⟩

lemma parseRequest_action (input : Bytes) (active : Option Bytes) :
    match parseRequest input active with
    | .error _ => exits input = false
    | .ok r => (r.action = Action.exit.code ↔ exits input = true) := by
  simp only [parseRequest, exits]
  cases htoken : strtokR delimiter input with
  | none => rfl
  | some x =>
    obtain ⟨token, rest⟩ := x
    cases haction : parseAction token active with
    | error e =>
      simp only [haction, beq_eq_false_iff_ne]
      intro hexit
      simp only [parseAction, hexit] at haction
      cases haction
    | ok y =>
      obtain ⟨a, r₀⟩ := y
      obtain ⟨ha, hcode⟩ := parseAction_action haction
      have hiff : ∀ r : Request, r.action = r₀.action →
          (r.action = Action.exit.code ↔ (toAction token == some .exit) = true) := by
        intro r hr
        rw [hr, hcode, ha, Action.code_injective.eq_iff, beq_iff_eq, Option.some_inj]
      simp only [haction]
      cases strtokR delimiter rest with
      | none => exact hiff r₀ rfl
      | some y =>
        simp only
        by_cases hlogin : a = .login
        · simp only [if_pos hlogin]
          cases strtokR delimiter y.2 with
          | none => exact hiff _ rfl
          | some z => exact hiff _ rfl
        · simp only [if_neg hlogin]
          exact hiff _ rfl

lemma message_known {e : ParsingError}
    (hactive : ∀ name, active = some name → newline ∉ name) : (onErr (e.message active)).Known := by
  cases e with
  | alreadyLoggedIn =>
    refine known_onErr ?_ rfl
    exact List.not_mem_append (List.not_mem_append (by decide) (not_mem_shown hactive)) (by decide)
  | noRequest => exact @known_onErr (ascii "Request pointer is nullptr!") (by decide) rfl
  | noAction => exact @known_onErr (ascii "Please enter the action!") (by decide) rfl
  | noData => exact @known_onErr [] (by decide) rfl
  | notLoggedIn => exact @known_onErr (ascii "User is not logged in!") (by decide) rfl
  | invalidAction => exact @known_onErr (ascii "Invalid action received!") (by decide) rfl

lemma evaluate_sends {input : Bytes} (h : evaluate input active = .sends r) : exits input = false := by
  have haction := parseRequest_action input active
  simp only [evaluate] at h
  cases hr : parseRequest input active with
  | error e =>
    simp only [hr] at h
    cases h
  | ok r₀ =>
    simp only [hr] at h haction
    split_ifs at h with hexit
    exact Bool.eq_false_iff.mpr fun hin => hexit (haction.mpr hin)

lemma evaluate_returns {input : Bytes} {goOn : Bool}
    (hactive : ∀ name, active = some name → newline ∉ name)
    (h : evaluate input active = .returns goOn) :
    exits input = !goOn ∧
      (if goOn then ∃ p, printEvaluation input active = [p] ∧ (p.Known ∨ p = clearScreen)
      else printEvaluation input active = []) := by
  have haction := parseRequest_action input active
  simp only [evaluate] at h
  simp only [printEvaluation]
  cases hr : parseRequest input active with
  | error e =>
    simp only [hr] at h haction
    cases h
    exact ⟨haction, _, rfl, .inl (message_known hactive)⟩
  | ok r =>
    simp only [hr] at h haction
    split_ifs at h with hexit hclear
    · cases h
      refine ⟨haction.mp hexit, if_neg ?_⟩
      rw [hexit]
      decide
    · cases h
      refine ⟨Bool.eq_false_iff.mpr fun hin => hexit (haction.mpr hin), clearScreen, ?_, .inr rfl⟩
      exact if_pos hclear

lemma mem_printEvaluation {input : Bytes} {goOn : Bool}
    (hactive : ∀ name, active = some name → newline ∉ name)
    (h : evaluate input active = .returns goOn) :
    ∀ p ∈ printEvaluation input active, p.Known ∨ p = clearScreen := by
  intro p hp
  have hprints := (evaluate_returns hactive h).2
  split_ifs at hprints
  · obtain ⟨q, hq, hknown⟩ := hprints
    rw [hq, List.mem_singleton] at hp
    rwa [hp]
  · rw [hprints] at hp
    cases hp

end Words

end SystemsLab.Reservation
