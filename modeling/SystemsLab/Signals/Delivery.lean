import SystemsLab.Signals.Processes

namespace SystemsLab.Signals

variable {n k : ℕ} {s s' : State} {action : Action} {allowed : State → Action → Prop}

def ChildPhase.due : ChildPhase → ℕ
  | .acking => 1
  | _ => 0

@[simp] lemma due_suspended (woken : Bool) : (ChildPhase.suspended woken).due = 0 := rfl
@[simp] lemma due_looping : ChildPhase.looping.due = 0 := rfl
@[simp] lemma due_acking : ChildPhase.acking.due = 1 := rfl
@[simp] lemma due_exited : ChildPhase.exited.due = 0 := rfl

def State.acks (s : State) : ℕ :=
  s.numAcksReceived + s.parentPendingAcks + s.parentSigusr1.toNat + s.child.due

def State.underway (s : State) : ℕ :=
  s.childSigusr1.toNat + s.childPendingSignals + s.child.due +
    s.parentSigusr1.toNat + s.parentPendingAcks

structure Counted (n : ℕ) (s : State) : Prop where
  acks_le : s.acks ≤ s.numSignalReceived
  received_le : s.numAcksReceived ≤ n
  exited : s.parent = .exited → s.numAcksReceived = n
  sigint : s.childSigint = true ∨ s.childPendingTermination = true → s.parent = .exited
  reported : Line.allSent ∈ s.lines → s.parent = .exited
  totals : ∀ k, Line.total k ∈ s.lines → n ≤ k

structure Exact (n : ℕ) (s : State) : Prop where
  acks_eq : s.acks = s.numSignalReceived
  underway_le : s.underway ≤ 1
  room : s.numAcksReceived + s.underway ≤ n
  totals : ∀ k, Line.total k ∈ s.lines → k = n

lemma start_counted (n : ℕ) : Counted n start where
  acks_le := le_rfl
  received_le := Nat.zero_le n
  exited := nofun
  sigint := by rintro (h | h) <;> cases h
  reported := nofun
  totals := nofun

lemma start_exact (n : ℕ) : Exact n start where
  acks_eq := rfl
  underway_le := Nat.zero_le 1
  room := Nat.zero_le n
  totals := nofun

section TakeAcks

variable (n s)

lemma takeAcks_received : (takeAcks n s).numAcksReceived =
    if s.parentPendingAcks = 0 then s.numAcksReceived
    else min n (s.numAcksReceived + s.parentPendingAcks) := by
  rw [takeAcks]
  by_cases h : s.parentPendingAcks = 0
  · simp [h]
  · have hpos : s.parentPendingAcks > 0 := Nat.pos_of_ne_zero h
    simp only [hpos, h, if_true, if_false]
    split_ifs with hmany
    · exact (min_eq_left hmany.le).symm
    · exact (min_eq_right (not_lt.mp hmany)).symm

lemma takeAcks_eq : takeAcks n s =
    { s with numAcksReceived := (takeAcks n s).numAcksReceived, parentPendingAcks := 0 } := by
  by_cases h : s.parentPendingAcks = 0
  · cases s
    simp only at h
    simp [takeAcks, h]
  · have hpos : s.parentPendingAcks > 0 := Nat.pos_of_ne_zero h
    simp [takeAcks, hpos]

end TakeAcks

lemma Counted.takeAcks (h : Counted n s) : Counted n (takeAcks n s) := by
  have hreceived := takeAcks_received n s
  have hle := h.received_le
  have hacks := h.acks_le
  rw [takeAcks_eq]
  refine ⟨?_, ?_, fun hexit => ?_, h.sigint, h.reported, h.totals⟩
  · simp only [State.acks] at hacks ⊢
    split_ifs at hreceived <;> omega
  · simp only
    split_ifs at hreceived <;> omega
  · have hn := h.exited hexit
    simp only
    split_ifs at hreceived <;> omega

lemma Counted.running (h : Counted n s) (hp : s.parent ≠ .exited) :
    s.childSigint = false ∧ s.childPendingTermination = false ∧ Line.allSent ∉ s.lines := by
  refine ⟨?_, ?_, fun hmem => hp (h.reported hmem)⟩
  · by_contra hint
    exact hp (h.sigint (Or.inl (by simpa using hint)))
  · by_contra hterm
    exact hp (h.sigint (Or.inr (by simpa using hterm)))

lemma Counted.sendSignal (h : Counted n s) (hp : s.parent ≠ .exited) : Counted n (sendSignal n s) := by
  obtain ⟨hint, hterm, hreport⟩ := h.running hp
  rw [Signals.sendSignal]
  split_ifs with hn halarm
  · exact ⟨h.acks_le, h.received_le, fun _ => hn, fun _ => rfl, fun _ => rfl, by simpa using h.totals⟩
  · refine ⟨h.acks_le, h.received_le, nofun, ?_, ?_, by simpa using h.totals⟩
    · simp [hint, hterm]
    · simp [hreport]
  · refine ⟨h.acks_le, h.received_le, nofun, ?_, ?_, h.totals⟩
    · simp [hint, hterm]
    · simp [hreport]

lemma State.parentSuspended.ne_exited (h : s.parentSuspended) : s.parent ≠ .exited := by
  rintro he
  rcases h with h | h <;> cases he.symm.trans h

lemma State.childSuspended.due_eq (h : s.childSuspended) : s.child.due = 0 := by
  rcases h with h | h <;> simp [h]

lemma Counted.step (h : Counted n s) (hs : step n s action = some s') : Counted n s' := by
  have hacks := h.acks_le
  cases action <;> simp only [Signals.step, Option.ite_none_right_eq_some, Option.some.injEq] at hs
  case alarmRings =>
    obtain ⟨-, rfl⟩ := hs
    exact ⟨hacks, h.received_le, h.exited, h.sigint, h.reported, h.totals⟩
  case parentAck =>
    obtain ⟨⟨hsuspended, hpending⟩, rfl⟩ := hs
    obtain ⟨hint, hterm, hreport⟩ := h.running hsuspended.ne_exited
    refine ⟨?_, h.received_le, nofun, by simp [parentAckHandler, hint, hterm],
      by simp [parentAckHandler, hreport], h.totals⟩
    simp only [State.acks, parentAckHandler, hpending, Bool.toNat_true, Bool.toNat_false] at hacks ⊢
    omega
  case parentAlarm =>
    obtain ⟨⟨hsuspended, -⟩, rfl⟩ := hs
    obtain ⟨hint, hterm, hreport⟩ := h.running hsuspended.ne_exited
    exact ⟨hacks, h.received_le, nofun, by simp [parentAlarmHandler, hint, hterm],
      by simp [parentAlarmHandler, hreport], h.totals⟩
  case parentReturns =>
    obtain ⟨hwoken, rfl⟩ := hs
    obtain ⟨hint, hterm, hreport⟩ := h.running (State.parentSuspended.ne_exited (Or.inr hwoken))
    exact ⟨hacks, h.received_le, nofun, by simp [hint, hterm], by simp [hreport], h.totals⟩
  case parentHandles =>
    obtain ⟨hp, rfl⟩ := hs
    apply h.takeAcks.sendSignal
    rw [takeAcks_eq]
    simp [hp]
  case childSignal =>
    obtain ⟨⟨hsuspended, -⟩, rfl⟩ := hs
    refine ⟨?_, h.received_le, h.exited, h.sigint, h.reported, h.totals⟩
    simpa [State.acks, childSignalHandler, hsuspended.due_eq] using hacks
  case childSigint =>
    obtain ⟨⟨hsuspended, hpending⟩, rfl⟩ := hs
    refine ⟨?_, h.received_le, h.exited, fun _ => h.sigint (Or.inl hpending), h.reported, h.totals⟩
    simpa [State.acks, childSigintHandler, hsuspended.due_eq] using hacks
  case childReturns =>
    obtain ⟨hwoken, rfl⟩ := hs
    refine ⟨?_, h.received_le, h.exited, h.sigint, h.reported, h.totals⟩
    simpa [State.acks, hwoken] using hacks
  case childCounts =>
    obtain ⟨⟨hlooping, -⟩, rfl⟩ := hs
    refine ⟨?_, h.received_le, h.exited, h.sigint, by simpa using h.reported, by simpa using h.totals⟩
    simpa [State.acks, hlooping] using hacks
  case childAcks =>
    obtain ⟨hacking, rfl⟩ := hs
    refine ⟨?_, h.received_le, h.exited, h.sigint, h.reported, h.totals⟩
    have hle : (s.parentSigusr1 || decide (s.parent ≠ .exited)).toNat ≤ 1 := Bool.toNat_le _
    simp only [State.acks, hacking, due_acking, due_looping] at hacks ⊢
    omega
  case childEnds =>
    obtain ⟨⟨hlooping, -⟩, hs⟩ := hs
    split_ifs at hs with hterm
    · obtain rfl := Option.some.inj hs
      have hn := h.exited (h.sigint (Or.inr hterm))
      refine ⟨?_, h.received_le, h.exited, h.sigint, by simpa using h.reported, ?_⟩
      · simpa [State.acks, hlooping] using hacks
      · intro k hk
        rcases List.mem_append.mp hk with hk | hk
        · exact h.totals k hk
        · simp only [List.mem_singleton, Line.total.injEq] at hk
          simp only [State.acks] at hacks
          omega
    · obtain rfl := Option.some.inj hs
      refine ⟨?_, h.received_le, h.exited, h.sigint, h.reported, h.totals⟩
      simpa [State.acks, hlooping] using hacks

lemma Reaches.counted (h : Reaches n allowed s) : Counted n s := by
  induction h with
  | start => exact start_counted n
  | step _ _ hs ih => exact ih.step hs

lemma Exact.exited (h : Exact n s) (hcounted : Counted n s) (hp : s.parent = .exited) :
    s.underway = 0 ∧ s.numSignalReceived = n := by
  have hn := hcounted.exited hp
  have hroom := h.room
  have hacks := h.acks_eq
  simp only [State.acks, State.underway] at hroom hacks ⊢
  omega

lemma Exact.takeAcks (h : Exact n s) : Exact n (takeAcks n s) ∧ (takeAcks n s).parentPendingAcks = 0 := by
  have hreceived := takeAcks_received n s
  have hacks := h.acks_eq
  have hle := h.underway_le
  have hroom := h.room
  rw [takeAcks_eq]
  simp only [State.acks, State.underway] at hacks hle hroom
  refine ⟨⟨?_, ?_, ?_, h.totals⟩, rfl⟩
  · simp only [State.acks]
    split_ifs at hreceived <;> omega
  · simp only [State.underway]
    omega
  · simp only [State.underway]
    split_ifs at hreceived <;> omega

lemma Exact.sendSignal (h : Exact n s) (hacks : s.parentPendingAcks = 0)
    (hsettled : s.parentPendingSigalrm = true → s.Settled) : Exact n (sendSignal n s) := by
  rw [Signals.sendSignal]
  split_ifs with hn halarm
  · exact ⟨h.acks_eq, h.underway_le, h.room, by simpa using h.totals⟩
  · obtain ⟨hsent, hpending, hchild, hack⟩ := hsettled halarm
    have hroom := h.room
    have hle : (s.childSigusr1 || decide (0 < n - s.numAcksReceived)).toNat ≤ 1 := Bool.toNat_le _
    have hdue : s.child.due = 0 := by
      cases hc : s.child with
      | acking => exact (hchild hc).elim
      | _ => rfl
    refine ⟨h.acks_eq, ?_, ?_, by simpa using h.totals⟩
    · simp only [State.underway, hpending, hdue, hack, hacks, Bool.toNat_false]
      omega
    · simp only [State.underway, hpending, hdue, hack, hacks, Bool.toNat_false] at hroom ⊢
      omega
  · exact ⟨h.acks_eq, h.underway_le, h.room, h.totals⟩

lemma Exact.step (h : Exact n s) (hcounted : Counted n s) (hallowed : OnTime s action)
    (hs : step n s action = some s') : Exact n s' := by
  have hacks := h.acks_eq
  have hle := h.underway_le
  have hroom := h.room
  simp only [State.acks, State.underway] at hacks hle hroom
  cases action <;> simp only [Signals.step, Option.ite_none_right_eq_some, Option.some.injEq] at hs
  case alarmRings =>
    obtain ⟨-, rfl⟩ := hs
    exact ⟨hacks, hle, hroom, h.totals⟩
  case parentAck =>
    obtain ⟨⟨-, hpending⟩, rfl⟩ := hs
    rw [hpending, Bool.toNat_true] at hacks hle hroom
    refine ⟨?_, ?_, ?_, h.totals⟩
    all_goals
      simp only [State.acks, State.underway, parentAckHandler, Bool.toNat_false]
      omega
  case parentAlarm =>
    obtain ⟨-, rfl⟩ := hs
    exact ⟨hacks, hle, hroom, h.totals⟩
  case parentReturns =>
    obtain ⟨-, rfl⟩ := hs
    exact ⟨hacks, hle, hroom, h.totals⟩
  case parentHandles =>
    obtain ⟨-, rfl⟩ := hs
    obtain ⟨htaken, hzero⟩ := h.takeAcks
    apply htaken.sendSignal hzero
    rw [takeAcks_eq]
    exact hallowed rfl
  case childSignal =>
    obtain ⟨⟨hsuspended, hpending⟩, rfl⟩ := hs
    rw [hpending, Bool.toNat_true, hsuspended.due_eq] at hle hroom
    rw [hsuspended.due_eq] at hacks
    refine ⟨?_, ?_, ?_, h.totals⟩
    all_goals
      simp only [State.acks, State.underway, childSignalHandler, Bool.toNat_false, due_suspended]
      omega
  case childSigint =>
    obtain ⟨⟨hsuspended, -⟩, rfl⟩ := hs
    rw [hsuspended.due_eq] at hacks hle hroom
    exact ⟨hacks, hle, hroom, h.totals⟩
  case childReturns =>
    obtain ⟨hwoken, rfl⟩ := hs
    rw [hwoken] at hacks hle hroom
    exact ⟨hacks, hle, hroom, h.totals⟩
  case childCounts =>
    obtain ⟨⟨hlooping, hpos⟩, rfl⟩ := hs
    rw [hlooping, due_looping] at hacks hle hroom
    refine ⟨?_, ?_, ?_, by simpa using h.totals⟩
    all_goals
      simp only [State.acks, State.underway, due_acking]
      omega
  case childAcks =>
    obtain ⟨hacking, rfl⟩ := hs
    rw [hacking, due_acking] at hacks hle hroom
    have hp : s.parent ≠ .exited := by
      intro hp
      have hnone := (h.exited hcounted hp).1
      simp [State.underway, hacking] at hnone
    have hfree : s.parentSigusr1 = false := by
      by_contra hset
      rw [Bool.not_eq_false] at hset
      rw [hset, Bool.toNat_true] at hle
      omega
    rw [hfree, Bool.toNat_false] at hacks hle hroom
    refine ⟨?_, ?_, ?_, h.totals⟩
    all_goals
      simp only [State.acks, State.underway, due_looping, hfree, hp, ne_eq, not_false_eq_true, decide_true,
        Bool.false_or, Bool.toNat_true]
      omega
  case childEnds =>
    obtain ⟨⟨hlooping, -⟩, hs⟩ := hs
    rw [hlooping] at hacks hle hroom
    split_ifs at hs with hterm
    · obtain rfl := Option.some.inj hs
      have hn := (h.exited hcounted (hcounted.sigint (Or.inr hterm))).2
      refine ⟨hacks, hle, hroom, fun k hk => ?_⟩
      rcases List.mem_append.mp hk with hk | hk
      · exact h.totals k hk
      · simp only [List.mem_singleton, Line.total.injEq] at hk
        exact hk.trans hn
    · obtain rfl := Option.some.inj hs
      exact ⟨hacks, hle, hroom, h.totals⟩

lemma Reaches.exact (h : Reaches n OnTime s) : Exact n s := by
  induction h with
  | start => exact start_exact n
  | step h hallowed hs ih => exact ih.step h.counted hallowed hs

theorem signals_counted :
    (Reaches n AnyOrder s → (Line.allSent ∈ s.lines → n ≤ s.numSignalReceived) ∧
      ∀ k, Line.total k ∈ s.lines → n ≤ k) ∧
    (Reaches n OnTime s → (Line.allSent ∈ s.lines → s.numSignalReceived = n) ∧
      ∀ k, Line.total k ∈ s.lines → k = n) := by
  constructor
  · intro h
    refine ⟨fun hreport => ?_, h.counted.totals⟩
    have hn := h.counted.exited (h.counted.reported hreport)
    have hacks := h.counted.acks_le
    rw [State.acks, hn] at hacks
    omega
  · intro h
    exact ⟨fun hreport => (h.exact.exited h.counted (h.counted.reported hreport)).2, h.exact.totals⟩

/-- The alarm rings again while the first signal is being counted, and the signal is sent twice. -/
def overtaken : List Action :=
  [.alarmRings, .parentAlarm, .parentReturns, .parentHandles, .alarmRings, .parentAlarm, .childSignal,
    .childReturns, .childCounts, .parentReturns, .parentHandles, .childAcks, .childEnds, .childSignal,
    .childReturns, .childCounts, .parentAck, .parentReturns, .parentHandles]

theorem signals_counted_two :
    ∃ s s' : State, Line.total 2 ∈ s.lines ∧ s.numSignalReceived = 2 ∧
      Line.allSent ∈ s'.lines ∧ 1 ≤ s'.numSignalReceived := by
  obtain ⟨s, hs⟩ : ∃ s, run 2 OnTime start (oneSignal ++ oneSignal ++ stopReceiver) = some s :=
    ⟨_, rfl⟩
  obtain ⟨s', hs'⟩ : ∃ s, run 1 AnyOrder start overtaken = some s := ⟨_, rfl⟩
  obtain ⟨hcounted, -⟩ := signals_counted.2 (Reaches.start.run hs)
  obtain ⟨hleast, -⟩ := signals_counted.1 (Reaches.start.run hs')
  obtain rfl := Option.some.inj hs
  obtain rfl := Option.some.inj hs'
  exact ⟨_, _, by decide, hcounted (by decide), by decide, hleast (by decide)⟩

/-- A signal that is sent again while its acknowledgement is due is counted twice. -/
theorem signal_counted_twice :
    ¬∀ (n : ℕ) (s : State), 1 ≤ n → Reaches n AnyOrder s → Line.allSent ∈ s.lines →
      s.numSignalReceived = n := by
  intro hclaim
  obtain ⟨s, hs⟩ : ∃ s, run 1 AnyOrder start overtaken = some s := ⟨_, rfl⟩
  have htwice := hclaim 1 s le_rfl (Reaches.start.run hs)
  obtain rfl := Option.some.inj hs
  exact absurd (htwice (by decide)) (by decide)

end SystemsLab.Signals
