import SystemsLab.Reservation.Deadlock

namespace SystemsLab.Reservation

open CLib Threads

/-- `pre` and `post` are the mutexes that the thread holds before and after the step, `own` is the
poll set it works on. Users only gain entries, and a poll set of another worker only gains a slot. -/
structure Touches (own : Option ℕ) (pre post : Set Mutex) (d d' : Data) : Prop where
  users : d'.users = d.users ∨ .array ∈ pre ∨ .array ∈ post
  user : ∀ uid u, d.users[uid]? = some u → ∃ u', d'.users[uid]? = some u' ∧
    u'.username = u.username ∧ u'.hashedPassword = u.hashedPassword ∧
    (u' = u ∨ .user uid ∈ post)
  pollSet : ∀ w, own ≠ some w → d'.pollSets w = d.pollSets w ∨
    (∃ fd, d'.pollSets w = (d.pollSets w).add fd) ∧ .pollSet w ∈ post
  seat : ∀ i, d'.seats i = d.seats i ∧ d'.history i = d.history i ∨ .seat i ∈ post

namespace Touches

variable {own : Option ℕ} {pre post : Set Mutex} {d : Data} {w : ℕ}

lemma refl : Touches own pre post d d where
  users := .inl rfl
  user _ u hu := ⟨u, hu, rfl, rfl, .inl rfl⟩
  pollSet _ _ := .inl rfl
  seat _ := .inl ⟨rfl, rfl⟩

lemma setLoggedIn {uid : ℕ} (b : Bool) (ha : .array ∈ pre) (hu : .user uid ∈ post) :
    Touches own pre post d (d.setLoggedIn uid b) where
  users := .inr (.inl ha)
  user i u hi := by
    refine ⟨if uid = i then { u with loggedIn := b } else u, ?_, ?_, ?_, ?_⟩
    · rw [Data.getElem?_setLoggedIn, hi, Option.map_some]
    · split <;> rfl
    · split <;> rfl
    · split
      · subst i
        exact .inr hu
      · exact .inl rfl
  pollSet _ _ := .inl rfl
  seat _ := .inl ⟨rfl, rfl⟩

lemma addUser {u : User} (ha : .array ∈ post) :
    Touches own pre post d { d with users := d.users ++ [u] } where
  users := .inr (.inr ha)
  user i v hi := by
    refine ⟨v, ?_, rfl, rfl, .inl rfl⟩
    rw [List.getElem?_append_left (List.getElem?_eq_some_iff.mp hi).1, hi]
  pollSet _ _ := .inl rfl
  seat _ := .inl ⟨rfl, rfl⟩

lemma setPollSet (p : PollSet) : Touches (some w) pre post d (d.setPollSet w p) where
  users := .inl rfl
  user _ u hu := ⟨u, hu, rfl, rfl, .inl rfl⟩
  pollSet v hv := .inl (Function.update_of_ne (by rintro rfl; exact hv rfl) _ _)
  seat _ := .inl ⟨rfl, rfl⟩

lemma setSeat {i : ℕ} {s : Seat} {o : SeatOp} (hi : .seat i ∈ post) :
    Touches own pre post d (d.setSeat i s o) where
  users := .inl rfl
  user _ u hu := ⟨u, hu, rfl, rfl, .inl rfl⟩
  pollSet _ _ := .inl rfl
  seat j := by
    by_cases hj : j = i
    · subst j
      exact .inr hi
    · exact .inl ⟨Function.update_of_ne hj _ _, Function.update_of_ne hj _ _⟩

lemma opened {d' : Data} {f : ℤ → Bool} (h : Touches own pre post d d') :
    Touches own pre post d { d' with opened := f } :=
  ⟨h.users, h.user, h.pollSet, h.seat⟩

end Touches

lemma HandlerStep.touches {C : Config} {w : ℕ} {c : Call} {salt : Bytes} {d d' : Data} {p : Point}
    {pc : Pc} (h : HandlerStep C w c salt d p d' pc) :
    Touches (some w) p.held (pc.held w) d d' := by
  cases h with
  | create => exact .addUser (by simp [Pc.held, Point.held])
  | verify | logout | newLockUser =>
    exact .setLoggedIn _ (by simp [Point.held]) (by simp [Pc.held, Point.held])
  | saveActiveUser | clearActiveUser => exact .setPollSet _
  | book | cancel => exact .setSeat (by simp [Pc.held, Point.held])
  | _ => exact .refl

lemma RemoveStep.touches {w : ℕ} {fd : ℤ} {rest : List (ℤ × Bool)} {d d' : Data}
    {p : RemovePoint} {pc : Pc} (h : RemoveStep w fd rest d p d' pc) :
    Touches (some w) (p.held w) (pc.held w) d d' := by
  cases h with
  | unlockArray =>
    exact .setLoggedIn _ (by simp [RemovePoint.held]) (by simp [Pc.held, RemovePoint.held])
  | close => exact (Touches.setPollSet _).opened
  | swap => exact .setPollSet _
  | _ => exact .refl

lemma WorkerStep.touches {C : Config} {w : ℕ} {o : Oracle} {d d' : Data} {pc pc' : Pc}
    (h : WorkerStep C w o d pc d' pc') : Touches (some w) (pc.held w) (pc'.held w) d d' := by
  cases h with
  | handler h => exact h.touches
  | remove h => exact h.touches
  | _ => exact .refl

lemma mainCode_touches {n : ℕ} {o : Oracle} {d d' : Data} {p p' : MainPoint}
    (h : mainCode n o d p = .next (d', p')) : Touches none p.held p'.held d d' := by
  cases p with
  | addLock j connfd =>
    simp only [mainCode] at h
    split at h <;> cases h
    · exact Touches.refl
    · refine ⟨.inl rfl, fun _ u hu => ⟨u, hu, rfl, rfl, .inl rfl⟩, fun w _ => ?_,
        fun _ => .inl ⟨rfl, rfl⟩⟩
      by_cases hw : w = j
      · subst w
        exact .inr ⟨⟨connfd, Function.update_self ..⟩, rfl⟩
      · exact .inl (Function.update_of_ne hw _ _)
  | accepting =>
    simp only [mainCode] at h
    split at h <;> cases h
    exact Touches.refl.opened
  | addUnlockFull j connfd =>
    cases h
    exact Touches.refl.opened
  | _ =>
    cases h
    exact Touches.refl

def Thread.pollSet {n : ℕ} : Thread n → Option ℕ
  | main => none
  | worker w => some w.val

lemma code_touches {C : Config} {t : Thread C.nCores} {pc pc' : Pc} {o : Oracle} {d d' : Data}
    (h : (server C).code t pc o d = .next (d', pc')) :
    Touches t.pollSet (held t pc) (held t pc') d d' := by
  cases t with
  | main =>
    cases pc <;> try cases h
    rename_i p
    simp only [server] at h
    split at h <;> cases h
    exact mainCode_touches ‹_›
  | worker w => exact (workerCode_step h).touches

structure Frame (w : ℕ) (S : Set Mutex) (d d' : Data) : Prop where
  users : .array ∈ S → d'.users = d.users
  user : ∀ uid u, d.users[uid]? = some u → ∃ u', d'.users[uid]? = some u' ∧
    u'.username = u.username ∧ u'.hashedPassword = u.hashedPassword ∧ (.user uid ∈ S → u' = u)
  pollSet : d'.pollSets w = d.pollSets w ∨
    (∃ fd, d'.pollSets w = (d.pollSets w).add fd) ∧ .pollSet w ∉ S
  seat : ∀ i, .seat i ∈ S → d'.seats i = d.seats i ∧ d'.history i = d.history i

lemma frame {C : Config} {s s' : Server C} (ho : (discipline C).Owns s) {t : Thread C.nCores}
    {o : Oracle} (h : (server C).step s t o = .next s') {w : Fin C.nCores} (hw : t ≠ .worker w) :
    Frame w ((s.pc (.worker w)).held w) s.data s'.data ∧ s'.pc (.worker w) = s.pc (.worker w) := by
  obtain ⟨_, d', pc', hc, rfl⟩ := Program.step_next h
  have ht := code_touches hc
  have hpre : ∀ m, m ∈ (s.pc (.worker w)).held w → m ∉ held t (s.pc t) := fun m hm hin =>
    ho.alone h hc hw.symm (.inl hin) hm
  have hpost : ∀ m, m ∈ (s.pc (.worker w)).held w → m ∉ held t pc' := fun m hm hin =>
    ho.alone h hc hw.symm (.inr hin) hm
  refine ⟨⟨?_, ?_, ?_, ?_⟩, Program.step_pc_ne h hw.symm⟩
  · intro ha
    rcases ht.users with hu | hu | hu
    · exact hu
    · exact absurd hu (hpre _ ha)
    · exact absurd hu (hpost _ ha)
  · intro uid u hu
    obtain ⟨u', hu', hn, hp, hs⟩ := ht.user uid u hu
    refine ⟨u', hu', hn, hp, fun hin => ?_⟩
    rcases hs with hs | hs
    · exact hs
    · exact absurd hs (hpost _ hin)
  · have hown : t.pollSet ≠ some w.val := by
      cases t with
      | main => simp [Thread.pollSet]
      | worker v =>
        simp only [Thread.pollSet, ne_eq, Option.some.injEq]
        exact fun hv => hw (congrArg _ (Fin.ext hv))
    rcases ht.pollSet w hown with hp | ⟨hp, hin⟩
    · exact .inl hp
    · exact .inr ⟨hp, fun hm => hpost _ hm hin⟩
  · intro i hi
    rcases ht.seat i with hs | hs
    · exact hs
    · exact absurd hs (hpost _ hi)

end SystemsLab.Reservation
