import SystemsLab.Reservation.Protocol
import SystemsLab.CLib.Strings

namespace SystemsLab.Reservation

open CLib

inductive ParsingError where
  | noRequest
  | noAction
  | noData
  | notLoggedIn
  | alreadyLoggedIn
  | invalidAction
  deriving DecidableEq

def delimiter (c : UInt8) : Bool := c == 32 || c == 9 || c == 13 || c == 10

def stripped (word : Bytes) : Bytes := word.filter fun c => !(isSpace c || isPunct c)

-- `none` is `ACTION_INVALID`.
def toAction (word : Bytes) : Option Action :=
  let w := stripped word
  if w = ascii "login" then some .login
  else if w = ascii "book" then some .book
  else if w = ascii "confirmbooking" then some .confirmBooking
  else if w = ascii "cancelbooking" then some .cancelBooking
  else if w = ascii "logout" then some .logout
  else if w = ascii "query" then some .query
  else if w = ascii "exit" ∨ w = ascii "quit" then some .exit
  else if w = ascii "clear" then some .clearScreen
  else none

def strdup (s : Bytes) : Bytes := cstr s ++ [0]

def strlen (s : Bytes) : UInt64 := UInt64.ofNat (cstr s).length

namespace Request

def setUsername (r : Request) (s : Bytes) : Request :=
  { r with username := some (strdup s), usernameLength := strlen s }

def setData (r : Request) (s : Bytes) : Request :=
  { r with data := some (strdup s), dataSize := strlen s }

end Request

-- The part of `parse_request` that looks at the first token.
def parseAction (token : Bytes) (active : Option Bytes) : Except ParsingError (Action × Request) :=
  match toAction token with
  | none => .error .invalidAction
  | some a =>
    let r := { defaultRequest with action := a.code }
    match a with
    | .login => if active.isSome then .error .alreadyLoggedIn else .ok (a, r)
    | .exit | .clearScreen | .query => .ok (a, r)
    | _ =>
      match active with
      | none => .error .notLoggedIn
      | some name => .ok (a, r.setUsername name)

def parseRequest (input : Bytes) (active : Option Bytes) : Except ParsingError Request :=
  match strtokR delimiter input with
  | none => .error .noAction
  | some (token, rest) =>
    match parseAction token active with
    | .error e => .error e
    | .ok (a, r) =>
      match strtokR delimiter rest with
      | none => .ok r
      | some (token, rest) =>
        if a = .login then
          let r := r.setUsername token
          match strtokR delimiter rest with
          | none => .ok r
          | some (token, _) => .ok (r.setData token)
        else .ok (r.setData token)

def handleLoginResponse (r : Request) (response : Response) (active : Option Bytes) :
    Option Bytes :=
  if response.code = LoginErrorCode.success.code then some r.user else active

def handleLogoutResponse (r : Request) (response : Response) (active : Option Bytes) :
    Option Bytes :=
  if response.code = LogoutErrorCode.success.code then
    if active = some r.user then none else active
  else active

/-- The client's `active_user` after a response. The other handlers only print. -/
def handleResponse (r : Request) (response : Response) (active : Option Bytes) : Option Bytes :=
  if r.action = Action.login.code then handleLoginResponse r response active
  else if r.action = Action.logout.code then handleLogoutResponse r response active
  else active

/-- `evaluate` up to `send_request`: it returns at once, or it sends a request and waits. -/
inductive Evaluation where
  | returns (goOn : Bool)
  | sends (r : Request)

def evaluate (input : Bytes) (active : Option Bytes) : Evaluation :=
  match parseRequest input active with
  | .error _ => .returns true
  | .ok r =>
    if r.action = Action.exit.code then .returns false
    else if r.action = Action.clearScreen.code then .returns true
    else .sends r

def NeedsUser (action : Int32) : Prop :=
  action = Action.book.code ∨ action = Action.confirmBooking.code ∨
    action = Action.cancelBooking.code ∨ action = Action.logout.code

structure Asked (active : Option Bytes) (r : Request) : Prop where
  proper : r.Proper
  known : r.action = Action.login.code ∨ r.action = Action.query.code ∨ NeedsUser r.action
  login : r.action = Action.login.code → active = none
  user : NeedsUser r.action → r.hasUsername = true ∧ active = some r.user

section Parsing

variable {s : Bytes} {r : Request} {active : Option Bytes} {a : Action}

lemma strdup_eq (h : IsText s) : strdup s = s ++ [0] := by
  rw [strdup, cstr_eq_self h.noNul]

lemma carries_strdup (h : IsText s) : Carries (some (strdup s)) (strlen s) := by
  rw [strdup_eq h, strlen, cstr_eq_self h.noNul]
  exact .present h

lemma user_setUsername (h : IsText s) : (r.setUsername s).user = s := by
  rw [Request.user, Request.setUsername, Option.getD_some, strdup_eq h]
  exact cstr_append_nul h.noNul []

lemma hasUsername_setUsername (h : IsText s) : (r.setUsername s).hasUsername = true := by
  have hpos : 0 < s.length := List.length_pos_iff.mpr h.ne_nil
  have hlt := h.length
  have hlen : 0 < UInt64.ofNat s.length := by
    rw [UInt64.lt_iff_toNat_lt, UInt64.toNat_ofNat', Nat.mod_eq_of_lt (by omega)]
    exact hpos
  rw [Request.hasUsername, Request.setUsername, strlen, cstr_eq_self h.noNul]
  simpa using hlen

structure Parsed (active : Option Bytes) (a : Action) (r : Request) : Prop where
  action : r.action = a.code
  known : a ≠ .termination
  login : a = .login → active = none
  user : NeedsUser a.code → r.hasUsername = true ∧ active = some r.user
  proper : r.Proper

lemma Parsed.setData (h : Parsed active a r) (hs : IsText s) : Parsed active a (r.setData s) :=
  ⟨h.action, h.known, h.login, h.user, h.proper.username, carries_strdup hs⟩

lemma Parsed.setUsername (h : Parsed active .login r) (hs : IsText s) :
    Parsed active .login (r.setUsername s) :=
  ⟨h.action, h.known, h.login, fun hn => absurd hn (by simp [NeedsUser, Action.code]),
    carries_strdup hs, h.proper.data⟩

lemma toAction_ne_termination (word : Bytes) : toAction word ≠ some .termination := by
  simp only [toAction]
  split_ifs <;> simp

lemma parseAction_parsed {token : Bytes} (hactive : ∀ name, active = some name → IsText name)
    (h : parseAction token active = .ok (a, r)) : Parsed active a r := by
  simp only [parseAction] at h
  split at h
  · cases h
  · rename_i b hb
    have hne : b ≠ .termination := by
      rintro rfl
      exact toAction_ne_termination token hb
    have hempty : Request.Proper { defaultRequest with action := b.code } :=
      ⟨Carries.absent, Carries.absent⟩
    cases b with
    | termination => exact absurd rfl hne
    | login =>
      simp only at h
      split_ifs at h with hsome
      cases h
      refine ⟨rfl, hne, fun _ => by simpa using hsome, fun hn => ?_, hempty⟩
      simp [NeedsUser, Action.code] at hn
    | exit | clearScreen | query =>
      cases h
      refine ⟨rfl, hne, nofun, fun hn => ?_, hempty⟩
      simp [NeedsUser, Action.code] at hn
    | book | confirmBooking | cancelBooking | logout =>
      simp only at h
      cases ha : active with
      | none => simp [ha] at h
      | some name =>
        simp only [ha] at h
        cases h
        have hname := hactive name ha
        refine ⟨rfl, hne, nofun, fun _ => ⟨hasUsername_setUsername hname, ?_⟩,
          carries_strdup hname, .absent⟩
        rw [user_setUsername hname]

lemma isText_of_token {delim : UInt8 → Bool} {token rest : Bytes} (hnul : (0 : UInt8) ∉ s)
    (hlen : s.length < 2 ^ 63) (h : strtokR delim s = some (token, rest)) :
    IsText token ∧ (0 : UInt8) ∉ rest ∧ rest.length < 2 ^ 63 := by
  obtain ⟨ht, hr⟩ := strtokR_sublist h
  exact ⟨⟨strtokR_ne_nil h, fun hin => hnul (ht.subset hin), ht.length_le.trans_lt hlen⟩,
    fun hin => hnul (hr.subset hin), hr.length_le.trans_lt hlen⟩

lemma parseRequest_parsed {input : Bytes} (hnul : (0 : UInt8) ∉ input)
    (hlen : input.length < 2 ^ 63) (hactive : ∀ name, active = some name → IsText name)
    (h : parseRequest input active = .ok r) : ∃ a, Parsed active a r := by
  simp only [parseRequest] at h
  split at h
  · cases h
  · rename_i token rest htoken
    obtain ⟨-, hnul, hlen⟩ := isText_of_token hnul hlen htoken
    split at h
    · cases h
    · rename_i a r₀ haction
      have hp := parseAction_parsed hactive haction
      split at h
      · cases h
        exact ⟨a, hp⟩
      · rename_i token rest htoken
        obtain ⟨htext, hnul, hlen⟩ := isText_of_token hnul hlen htoken
        split_ifs at h with hlogin
        · subst hlogin
          split at h
          · cases h
            exact ⟨.login, hp.setUsername htext⟩
          · rename_i token rest htoken
            cases h
            exact ⟨.login, (hp.setUsername htext).setData (isText_of_token hnul hlen htoken).1⟩
        · cases h
          exact ⟨a, hp.setData htext⟩

lemma evaluate_asked {input : Bytes} (hnul : (0 : UInt8) ∉ input) (hlen : input.length < 2 ^ 63)
    (hactive : ∀ name, active = some name → IsText name) (h : evaluate input active = .sends r) :
    Asked active r := by
  simp only [evaluate] at h
  split at h
  · cases h
  · rename_i r₀ hparse
    obtain ⟨a, hp⟩ := parseRequest_parsed hnul hlen hactive hparse
    split_ifs at h with hexit hclear
    cases h
    refine ⟨hp.proper, ?_, ?_, ?_⟩
    · rw [hp.action] at hexit hclear ⊢
      have hknown := hp.known
      cases a <;> simp_all [NeedsUser, Action.code]
    · rw [hp.action]
      intro hl
      refine hp.login ?_
      cases a <;> first | rfl | exact absurd hl (by decide)
    · rw [hp.action]
      exact hp.user

end Parsing

section Responses

variable {r : Request} {response : Response} {active : Option Bytes}

lemma isText_user (hp : r.Proper) (hn : r.hasUsername = true) : IsText r.user := by
  obtain ⟨usernameLength, dataSize, action, username, data⟩ := r
  cases hp.username with
  | absent => simp [Request.hasUsername] at hn
  | present ht => rwa [Request.user, Option.getD_some, cstr_append_nul ht.noNul]

lemma isText_handleResponse (hp : r.Proper)
    (hlogin : r.action = Action.login.code → response.code = LoginErrorCode.success.code →
      r.hasUsername = true)
    (hactive : ∀ name, active = some name → IsText name) :
    ∀ name, handleResponse r response active = some name → IsText name := by
  intro name h
  simp only [handleResponse, handleLoginResponse, handleLogoutResponse] at h
  split_ifs at h with h₁ h₂
  · cases h
    exact isText_user hp (hlogin h₁ h₂)
  all_goals exact hactive name h

end Responses

end SystemsLab.Reservation
