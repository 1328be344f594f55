import SystemsLab.CLib.Bytes

/-! Requests and responses of the seat reservation service, with the numbers that stand for
actions and error codes on the wire. -/

namespace SystemsLab.Reservation

open CLib

inductive Action where
  | termination
  | login
  | book
  | confirmBooking
  | cancelBooking
  | logout
  | query
  | exit
  | clearScreen
  deriving DecidableEq

def Action.code : Action → Int32
  | termination => 0
  | login => 1
  | book => 2
  | confirmBooking => 3
  | cancelBooking => 4
  | logout => 5
  | query => 6
  | exit => 7
  | clearScreen => 8

lemma Action.code_injective : Function.Injective Action.code := by
  intro a b h
  cases a <;> cases b <;> first | rfl | exact absurd h (by decide)

def actionInvalid : Int32 := -1

inductive LoginErrorCode where
  | success
  | activeUser
  | activeClient
  | incorrectPassword
  | noPassword
  | noUsernameAndPassword
  deriving DecidableEq

def LoginErrorCode.code : LoginErrorCode → Int32
  | success => 0
  | activeUser => 1
  | activeClient => 2
  | incorrectPassword => 3
  | noPassword => 4
  | noUsernameAndPassword => 5

inductive BookErrorCode where
  | success
  | userNotLoggedIn
  | seatUnavailable
  | seatOutOfRange
  | noData
  deriving DecidableEq

def BookErrorCode.code : BookErrorCode → Int32
  | success => 0
  | userNotLoggedIn => 1
  | seatUnavailable => 2
  | seatOutOfRange => 3
  | noData => 4

inductive CancelBookingErrorCode where
  | success
  | userNotLoggedIn
  | seatNotBookedByUser
  | seatOutOfRange
  | noData
  deriving DecidableEq

def CancelBookingErrorCode.code : CancelBookingErrorCode → Int32
  | success => 0
  | userNotLoggedIn => 1
  | seatNotBookedByUser => 2
  | seatOutOfRange => 3
  | noData => 4

inductive ConfirmBookingErrorCode where
  | success
  | userNotLoggedIn
  | invalidData
  | noData
  deriving DecidableEq

def ConfirmBookingErrorCode.code : ConfirmBookingErrorCode → Int32
  | success => 0
  | userNotLoggedIn => 1
  | invalidData => 2
  | noData => 3

inductive LogoutErrorCode where
  | success
  | userNotFound
  | userNotLoggedIn
  deriving DecidableEq

def LogoutErrorCode.code : LogoutErrorCode → Int32
  | success => 0
  | userNotFound => 1
  | userNotLoggedIn => 2

inductive QueryErrorCode where
  | success
  | seatOutOfRange
  | noData
  deriving DecidableEq

def QueryErrorCode.code : QueryErrorCode → Int32
  | success => 0
  | seatOutOfRange => 1
  | noData => 2

-- `username` and `data` are the allocated buffers, `none` is a null pointer.
structure Request where
  usernameLength : UInt64
  dataSize : UInt64
  action : Int32
  username : Option Bytes
  data : Option Bytes
  deriving DecidableEq

structure Response where
  dataSize : UInt64
  code : Int32
  data : Option Bytes
  deriving DecidableEq

def defaultRequest : Request := ⟨0, 0, actionInvalid, none, none⟩

def setResponse (code : Int32) : Response := ⟨0, code, none⟩

structure SeatStats where
  id : UInt64
  amountOfTimesBooked : UInt64
  amountOfTimesCanceled : UInt64
  deriving DecidableEq

def seatNumberSize : ℕ := 8

def SeatStats.bytes (s : SeatStats) : Bytes :=
  leBytes 8 s.id.toNat ++ leBytes 8 s.amountOfTimesBooked.toNat ++
    leBytes 8 s.amountOfTimesCanceled.toNat

namespace Request

def hasData (r : Request) : Bool := r.data.isSome && 0 < r.dataSize

def hasUsername (r : Request) : Bool := r.username.isSome && 0 < r.usernameLength

def user (r : Request) : Bytes := cstr (r.username.getD [])

def text (r : Request) : Bytes := cstr (r.data.getD [])

end Request

structure IsText (b : Bytes) : Prop where
  ne_nil : b ≠ []
  noNul : (0 : UInt8) ∉ b
  length : b.length < 2 ^ 63

/-- A buffer and its length field: no buffer and length 0, or a text with its NUL. -/
inductive Carries : Option Bytes → UInt64 → Prop
  | absent : Carries none 0
  | present {b : Bytes} (h : IsText b) : Carries (some (b ++ [0])) (UInt64.ofNat b.length)

structure Request.Proper (r : Request) : Prop where
  username : Carries r.username r.usernameLength
  data : Carries r.data r.dataSize

end SystemsLab.Reservation
