import SystemsLab.CLib.Numerals
import SystemsLab.Reservation.Server

namespace SystemsLab.Reservation

open CLib

variable {r : Request} {n : ℕ} {z : ℤ}

lemma parseSeatNumber_of_denotes (hdata : r.hasData = true) (h : Denotes r.text z) :
    parseSeatNumber r = some n ↔
      z.natAbs ≤ ullongMax ∧ (z % 2 ^ 64).toNat = n ∧ 1 ≤ n ∧ n ≤ numSeats := by
  have htext : ([] : Bytes) ≠ r.text := h.ne_nil.symm
  simp only [parseSeatNumber, if_pos hdata, strtoull_of_denotes h]
  by_cases hbig : z.natAbs > ullongMax
  · simp [hbig]
  · simp only [if_neg hbig, Bool.false_or, beq_eq_false_iff_ne.mpr htext, bne_self_eq_false,
      Bool.or_eq_true, decide_eq_true_eq, not_lt.mp hbig, true_and]
    constructor
    · intro h
      split_ifs at h with hrange
      cases h
      exact ⟨rfl, by omega, by omega⟩
    · rintro ⟨rfl, hlow, hhigh⟩
      rw [if_neg (by omega)]

lemma parseSeatNumber_denotes (h : parseSeatNumber r = some n) :
    r.hasData = true ∧ ∃ z, Denotes r.text z := by
  simp only [parseSeatNumber] at h
  split_ifs at h with hdata hbad
  simp only [Bool.or_eq_true, beq_iff_eq, bne_iff_ne, decide_eq_true_eq, not_or, ne_eq,
    not_not] at hbad
  exact ⟨hdata, denotes_of_strtoull hbad.1.1.2 hbad.1.1.1.2⟩

/-- The numerals that wrap to a seat number: a minus sign is not a range error for `strtoull`. -/
def WrapsToSeat (z : ℤ) : Prop := -2 ^ 64 < z ∧ z ≤ -2 ^ 64 + numSeats

lemma parseSeatNumber_eq (hdata : r.hasData = true) (h : Denotes r.text z) :
    parseSeatNumber r = some n ↔
      1 ≤ n ∧ n ≤ numSeats ∧ (z = n ∨ WrapsToSeat z ∧ z + 2 ^ 64 = n) := by
  rw [parseSeatNumber_of_denotes hdata h, WrapsToSeat]
  have hfew : numSeats < 2 ^ 63 := by decide
  simp only [ullongMax]
  omega

structure RefusesSeat (c : Call) (active : Option Bytes) : Prop where
  book : c.handleBookRequest active = .respond c (setResponse BookErrorCode.seatOutOfRange.code)
  cancelBooking : c.handleCancelBookingRequest active =
    .respond c (setResponse CancelBookingErrorCode.seatOutOfRange.code)
  query : c.handleQueryRequest = .respond c (setResponse QueryErrorCode.seatOutOfRange.code)

lemma refusesSeat_iff {c : Call} {active : Option Bytes} (hdata : c.request.hasData = true) :
    RefusesSeat c active ↔ parseSeatNumber c.request = none := by
  constructor
  · rintro ⟨-, -, hquery⟩
    cases hparse : parseSeatNumber c.request with
    | none => rfl
    | some n => simp [Call.handleQueryRequest, hdata, hparse] at hquery
  · intro hnone
    constructor
    · simp [Call.handleBookRequest, hdata, hnone]
    · simp [Call.handleCancelBookingRequest, hdata, hnone]
    · simp [Call.handleQueryRequest, hdata, hnone]

structure SaysItsSeat (r : Request) : Prop where
  denotes : ∀ n, parseSeatNumber r = some n → Denotes r.text n ∧ 1 ≤ n ∧ n ≤ numSeats
  refuses : ∀ (c : Call) (active : Option Bytes) (z : ℤ), c.request = r → r.hasData = true →
    Denotes r.text z → z < 1 ∨ (numSeats : ℤ) < z → RefusesSeat c active

theorem seat_numbers_say_their_seat (r : Request) :
    SaysItsSeat r ↔ ¬(r.hasData = true ∧ ∃ z, Denotes r.text z ∧ WrapsToSeat z) := by
  constructor
  · rintro hagree ⟨hdata, z, hz, hwraps⟩
    have hparse := (parseSeatNumber_eq (n := (z + 2 ^ 64).toNat) hdata hz).mpr (by
      have hwraps' := hwraps
      simp only [WrapsToSeat] at hwraps'
      exact ⟨by omega, by omega, Or.inr ⟨hwraps, by omega⟩⟩)
    have heq := hz.unique (hagree.denotes _ hparse).1
    simp only [WrapsToSeat] at hwraps
    omega
  · intro hnowrap
    constructor
    · intro n hn
      obtain ⟨hdata, z, hz⟩ := parseSeatNumber_denotes hn
      obtain ⟨hlow, hhigh, rfl | ⟨hwraps, -⟩⟩ := (parseSeatNumber_eq hdata hz).mp hn
      · exact ⟨hz, hlow, hhigh⟩
      · exact absurd ⟨hdata, z, hz, hwraps⟩ hnowrap
    · rintro c active z rfl hdata hz hrange
      rw [refusesSeat_iff hdata]
      cases hn : parseSeatNumber c.request with
      | none => rfl
      | some n =>
        obtain ⟨hlow, hhigh, rfl | ⟨hwraps, -⟩⟩ := (parseSeatNumber_eq hdata hz).mp hn
        · omega
        · exact absurd ⟨hdata, z, hz, hwraps⟩ hnowrap

def wrappingRequest : Request :=
  { defaultRequest with dataSize := 21, data := some (ascii "-18446744073709551615" ++ [0]) }

theorem wrapping_request_is_seat_one : ¬SaysItsSeat wrappingRequest := by
  intro hagree
  obtain ⟨hdenotes, -⟩ := hagree.denotes 1 (by decide)
  have hminus : Denotes wrappingRequest.text (-18446744073709551615) :=
    .minus (digits_of_all (by decide) rfl)
  exact absurd (hminus.unique hdenotes) (by decide)

end SystemsLab.Reservation
