import SystemsLab.Reservation.Scans

namespace SystemsLab.Reservation

open CLib Threads Function

variable {C : Config}

def isFree (a : Server C) (i : ℕ) : Bool := (a.data.seats i).userWhoBooked.isNone

section Owned

variable {s s' : Server C} {t : Thread C.nCores} {o : Oracle} {x : Fin C.nCores × ℕ} {u : Bytes}

end Owned

section Schedules

end Schedules

section TwoCores

def twoCores : Config where
  nCores := 2
  pipeOut w := 3 + 2 * w
  reserved fd := 0 ≤ fd && fd ≤ 7
  pipeOut_reserved w hw := by
    simp only [Bool.and_eq_true, decide_eq_true_eq]
    omega
  pipeOut_ne v hv w hw h := by omega
  argon2Hash password _ := password
  argon2Verify hashed password := hashed == password

def accepts (fd : ℤ) : List (Thread 2 × Oracle) :=
  List.replicate 7 (.main, { anyOracle with connfd := fd })

def taken (a : Server twoCores) : Bool := !isFree a 0 || !isFree a 1

end TwoCores

end SystemsLab.Reservation
