import SystemsLab.Reservation.Locks

namespace SystemsLab.Reservation

open CLib Threads Relation

lemma initial_fresh (C : Config) : (discipline C).Fresh (initialPc (n := C.nCores)) := by
  rintro (_ | w) <;> rfl

lemma Reachable.owns {C : Config} {s : Server C} (hs : Reachable C s) : (discipline C).Owns s :=
  (discipline C).owns (initial_fresh C) hs

def Pc.Returned : Pc → Prop
  | respond _ _ => True
  | serve _ => True
  | main .accepting => True
  | main (.addLock _ _) => True
  | _ => False

lemma held_of_returned {n : ℕ} {t : Thread n} {pc : Pc} (h : pc.Returned) : held t pc = ∅ := by
  cases t <;> cases pc <;> try cases h
  all_goals try rfl
  rename_i p
  cases p <;> first | rfl | cases h

-- A thread inside a critical section waits for nothing but mutexes.
lemma code_ne_stuck {C : Config} {t : Thread C.nCores} {pc : Pc} {m : Mutex} (o : Oracle) (d : Data)
    (hm : m ∈ held t pc) : (server C).code t pc o d ≠ .stuck := by
  cases t with
  | main =>
    cases pc with
    | main p => cases p <;> simp [held, MainPoint.held, server, mainCode] at hm ⊢
    | _ => cases hm
  | worker w =>
    cases pc with
    | handler c p =>
      cases p <;> simp [server, workerCode, Call.handlerCode] <;> repeat' split
      all_goals simp
    | found fd r slot rest => cases slot <;> simp [server, workerCode]
    | snapped locals => simp [server, workerCode]
    | remove fd rest p => simp [server, workerCode]
    | _ => cases hm

theorem deadlock_freedom (C : Config) (s : Server C) (hs : Reachable C s) :
    (∀ t, (s.pc t).Returned → ∀ m, s.owner m ≠ some t) ∧
      (∀ t m, (server C).op t (s.pc t) = .unlock m → s.owner m = some t) ∧
      (∀ t, ¬ TransGen ((server C).WaitsFor s) t t) ∧
      ∀ t, (server C).Blocked s t →
        ∃ u, TransGen ((server C).WaitsFor s) t u ∧ (server C).CanStep s u := by
  have ho := hs.owns
  refine ⟨?_, ?_, fun t => Discipline.acyclic (ordered C) ho t, ?_⟩
  · intro t ht m hm
    have hin : m ∈ held t (s.pc t) := (ho m t).mp hm
    rw [held_of_returned ht] at hin
    exact hin
  · intro t m hm
    exact (ho m t).mpr ((discipline C).unlock hm)
  · intro t hb
    have hN : ∀ m : Mutex, m.rank ≤ 3 := by
      intro m
      cases m <;> simp [Mutex.rank]
    obtain ⟨u, m, hu, hm, hnb⟩ := Discipline.chain_end (ordered C) ho hN hb
    let o : Oracle := ⟨[], none, true, [], 0⟩
    exact ⟨u, hu, Program.canStep_of_code (i := o) hnb (code_ne_stuck o s.data ((ho m u).mp hm))⟩

theorem deadlock_freedom_waiting : ∃ u,
    TransGen ((server oneCore).WaitsFor (after oneCore [(.worker (0 : Fin 1), anyOracle), (.main, anyOracle)]))
      .main u ∧
    (server oneCore).CanStep (after oneCore [(.worker (0 : Fin 1), anyOracle), (.main, anyOracle)]) u :=
  (deadlock_freedom oneCore _ (reachable_after _ _)).2.2.2 .main
    ⟨.pollSet 0, .worker (0 : Fin 1), rfl, rfl⟩

end SystemsLab.Reservation
