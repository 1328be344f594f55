import SystemsLab.Reservation.Steps

namespace SystemsLab.Reservation

open CLib Threads

def Point.held : Point → Set Mutex
  | lockArray _ => ∅
  | unlockArrayUnknown _ => {.array}
  | lockUser _ _ => {.array}
  | unlockArray _ uid => {.array, .user uid}
  | unlockUser uid _ => {.user uid}
  | loginUnlockUser uid => {.user uid}
  | newLockUser _ => {.array}
  | newUnlockUser uid => {.array, .user uid}
  | newUnlockArray _ => {.array}
  | saveActiveUser => ∅
  | logoutUnlockUser uid => {.user uid}
  | clearActiveUser => ∅
  | lockSeat _ uid _ => {.user uid}
  | unlockSeat _ uid i _ => {.user uid, .seat i}
  | scanLock _ uid _ _ => {.user uid}
  | scanUnlock _ uid i _ => {.user uid, .seat i}
  | queryLock _ => ∅
  | queryUnlock i _ => {.seat i}

def RemovePoint.held (w : ℕ) : RemovePoint → Set Mutex
  | lockPollSet => ∅
  | lockArray _ _ => {.pollSet w}
  | unlockArrayUnknown _ => {.pollSet w, .array}
  | lockUser _ _ => {.pollSet w, .array}
  | unlockArray _ uid => {.pollSet w, .array, .user uid}
  | unlockUser _ uid => {.pollSet w, .user uid}
  | close _ => {.pollSet w}
  | swap _ => {.pollSet w}
  | unlockPollSet => {.pollSet w}

def MainPoint.held : MainPoint → Set Mutex
  | accepting => ∅
  | findLock _ _ _ => ∅
  | findUnlock i _ _ _ => {.pollSet i}
  | spin _ => ∅
  | addLock _ _ => ∅
  | addUnlockFull j _ => {.pollSet j}
  | addUnlock j _ => {.pollSet j}

def Pc.held (w : ℕ) : Pc → Set Mutex
  | top => ∅
  | snapped _ => {.pollSet w}
  | polling _ => ∅
  | serve _ => ∅
  | find _ _ _ => ∅
  | found _ _ _ _ => {.pollSet w}
  | handler _ p => p.held
  | respond _ _ => ∅
  | remove _ _ p => p.held w
  | main _ => ∅

def held {n : ℕ} : Thread n → Pc → Set Mutex
  | .main, .main p => p.held
  | .main, _ => ∅
  | .worker w, pc => pc.held w

lemma handleRequest_held (c : Call) (active : Option Bytes) (w : ℕ) :
    (c.handleRequest active).held w = ∅ := by
  simp only [Call.handleRequest, Call.handleLoginRequest, Call.handleBookRequest,
    Call.handleConfirmBookingRequest, Call.handleCancelBookingRequest, Call.handleLogoutRequest,
    Call.handleQueryRequest, Call.lockLoggedInUser]
  repeat' split
  all_goals simp only [Pc.held, Point.held]

lemma HandlerStep.held {C : Config} {w : ℕ} {c : Call} {salt : Bytes} {d d' : Data} {p : Point}
    {pc : Pc} (h : HandlerStep C w c salt d p d' pc) : pc.held w = p.op.apply p.held := by
  cases h <;> simp [Pc.held, Point.held, Point.op, Op.apply, Set.pair_comm]

lemma RemoveStep.held {w : ℕ} {fd : ℤ} {rest : List (ℤ × Bool)} {d d' : Data} {p : RemovePoint}
    {pc : Pc} (h : RemoveStep w fd rest d p d' pc) : pc.held w = (p.op w).apply (p.held w) := by
  cases h
  all_goals ext m
  all_goals cases m <;> simp [Pc.held, RemovePoint.held, RemovePoint.op, Op.apply]

lemma findNext_held (n i : ℕ) (best : Option (ℕ × ℕ)) (connfd : ℤ) :
    (findNext n i best connfd).held = ∅ := by
  simp only [findNext]
  split_ifs
  · rfl
  · cases best <;> rfl

lemma mainCode_held {n : ℕ} {o : Oracle} {d d' : Data} {p p' : MainPoint}
    (h : mainCode n o d p = .next (d', p')) : p'.held = p.op.apply p.held := by
  cases p <;> simp only [mainCode] at h <;> repeat' split at h
  all_goals cases h
  all_goals try rw [findNext_held]
  all_goals simp [MainPoint.held, MainPoint.op, Op.apply]

lemma WorkerStep.held {C : Config} {w : ℕ} {o : Oracle} {d d' : Data} {pc pc' : Pc}
    (h : WorkerStep C w o d pc d' pc') : pc'.held w = (pc.op w).apply (pc.held w) := by
  cases h with
  | handler h => exact h.held
  | remove h => exact h.held
  | enter =>
    rw [handleRequest_held]
    simp [Pc.held, Pc.op, Op.apply]
  | _ => simp [Pc.held, Pc.op, Op.apply, RemovePoint.held]

lemma op_unlock_held {w : ℕ} {pc : Pc} {m : Mutex} (h : pc.op w = .unlock m) :
    m ∈ pc.held w := by
  cases pc with
  | handler c p => cases p <;> cases h <;> simp [Pc.held, Point.held]
  | remove fd rest p => cases p <;> cases h <;> simp [Pc.held, RemovePoint.held]
  | _ => cases h <;> simp [Pc.held]

def discipline (C : Config) : Discipline (server C) where
  held := held
  unlock := by
    rintro (_ | w) pc m h
    · cases pc <;> try cases h
      rename_i p
      cases p <;> cases h <;> simp [held, MainPoint.held]
    · exact op_unlock_held h
  next := by
    rintro (_ | w) pc o d d' pc' h
    · cases pc <;> try cases h
      rename_i p
      simp only [server] at h
      split at h <;> cases h
      exact mainCode_held ‹_›
    · exact (workerCode_step h).held

def Mutex.rank : Mutex → ℕ
  | pollSet _ => 0
  | array => 1
  | user _ => 2
  | seat _ => 3

lemma ordered (C : Config) : (discipline C).Ordered Mutex.rank := by
  rintro (_ | w) pc m m' h hm
  · cases pc with
    | main p => cases p <;> cases h <;> cases hm
    | _ => cases h
  · cases pc with
    | handler c p =>
      cases p <;> cases h <;> simp only [discipline, held, Pc.held, Point.held,
        Set.mem_singleton_iff, Set.mem_empty_iff_false] at hm
      all_goals
        subst hm
        simp [Mutex.rank]
    | remove fd rest p =>
      cases p <;> cases h <;> simp only [discipline, held, Pc.held, RemovePoint.held,
        Set.mem_insert_iff, Set.mem_singleton_iff, Set.mem_empty_iff_false] at hm
      · subst hm
        simp [Mutex.rank]
      · rcases hm with rfl | rfl <;> simp [Mutex.rank]
    | _ => cases h <;> cases hm

end SystemsLab.Reservation
