import SystemsLab.Reservation.Bookkeeping

namespace SystemsLab.Reservation

open Threads

inductive Acceptance
  /-- The size that `find_suitable_pollset` has read under the lock. -/
  | inspected (i size : ℕ)
  | returned (i : Option ℕ)
  /-- `add_to_pollset` has taken the branch that inserts the descriptor, or the one that closes it. -/
  | added (j : ℕ) (inserted : Bool)
deriving DecidableEq

open Acceptance

def MainPoint.answer : MainPoint → Option Acceptance
  | .addLock j _ => some (returned (some j))
  | .spin _ => some (returned none)
  | _ => none

def MainPoint.inserts : MainPoint → Bool
  | .addUnlock _ _ => true
  | _ => false

def MainPoint.acceptance (d : Data) (p p' : MainPoint) : Option Acceptance :=
  match p with
  | .findLock i _ _ => some (inspected i (d.pollSets i).size)
  | .addLock j _ => some (added j p'.inserts)
  | _ => p'.answer

def acceptances {C : Config} (s : Server C) (t : Thread C.nCores) (_ : Oracle) (s' : Server C) :
    List Acceptance :=
  match t, s.pc .main, s'.pc .main with
  | .main, .main p, .main p' => (p.acceptance s.data p').toList
  | _, _, _ => []

def Least (sizes : List ℕ) : Option (ℕ × ℕ) → Prop
  | none => ∀ size ∈ sizes, clientsPerThread ≤ size
  | some (j, m) => (sizes)[j]? = some m ∧ m < clientsPerThread ∧
      ∀ size ∈ sizes, size < clientsPerThread → m ≤ size

def inspections (sizes : List ℕ) : List Acceptance := sizes.mapIdx inspected

def Justified (n : ℕ) (before : List Acceptance) : Acceptance → Prop
  | inspected _ _ => True
  | returned i => ∃ sizes best, sizes.length = n ∧ inspections sizes <:+ before ∧
      Least sizes best ∧ i = best.map Prod.fst
  | added j inserted => inserted = true ∧ [returned (some j)] <:+ before

def MainPoint.Follows (n : ℕ) (events : List Acceptance) : MainPoint → Prop
  | .findLock i best _ => i < n ∧ ∃ sizes, sizes.length = i ∧ inspections sizes <:+ events ∧
      Least sizes best
  | .findUnlock i best size _ => i < n ∧ ∃ sizes, sizes.length = i ∧
      inspections (sizes ++ [size]) <:+ events ∧ Least sizes best
  | .addLock j _ => [returned (some j)] <:+ events
  | _ => True

variable {n : ℕ} {events before rest more : List Acceptance} {e : Acceptance} {sizes : List ℕ}
  {best : Option (ℕ × ℕ)} {d d' : Data} {o : Oracle} {p p' : MainPoint}

lemma least_nil : Least [] none := by
  intro size hsize
  cases hsize

lemma Least.better (h : Least sizes best) (size : ℕ) :
    Least (sizes ++ [size]) (better best sizes.length size) := by
  have hmem : ∀ x ∈ sizes ++ [size], x ∈ sizes ∨ x = size := by simp
  simp only [Reservation.better]
  split_ifs with hroom
  · cases best with
    | none =>
      refine ⟨List.getElem?_concat_length, hroom, fun x hx hlt => ?_⟩
      rcases hmem x hx with hx | rfl
      · exact absurd (h x hx) (by omega)
      · exact le_rfl
    | some b =>
      obtain ⟨j, m⟩ := b
      obtain ⟨hj, hm, hleast⟩ := h
      simp only
      split_ifs with hless
      · refine ⟨List.getElem?_concat_length, hroom, fun x hx hlt => ?_⟩
        rcases hmem x hx with hx | rfl
        · exact hless.le.trans (hleast x hx hlt)
        · exact le_rfl
      · have hlt := (List.getElem?_eq_some_iff.mp hj).1
        refine ⟨by rw [List.getElem?_append_left hlt, hj], hm, fun x hx hlt => ?_⟩
        rcases hmem x hx with hx | rfl
        · exact hleast x hx hlt
        · exact not_lt.mp hless
  · cases best with
    | none =>
      intro x hx
      rcases hmem x hx with hx | rfl
      · exact h x hx
      · exact not_lt.mp hroom
    | some b =>
      obtain ⟨j, m⟩ := b
      obtain ⟨hj, hm, hleast⟩ := h
      have hlt := (List.getElem?_eq_some_iff.mp hj).1
      refine ⟨by rw [List.getElem?_append_left hlt, hj], hm, fun x hx hlt => ?_⟩
      rcases hmem x hx with hx | rfl
      · exact hleast x hx hlt
      · exact absurd hlt hroom

lemma inspections_concat (sizes : List ℕ) (size : ℕ) :
    inspections (sizes ++ [size]) = inspections sizes ++ [inspected sizes.length size] :=
  List.mapIdx_concat

lemma findNext_follows {i : ℕ} (hi : i ≤ n) (hsizes : sizes.length = i)
    (hevents : inspections sizes <:+ events) (hleast : Least sizes best) (connfd : ℤ) :
    (findNext n i best connfd).Follows n (events ++ (findNext n i best connfd).answer.toList) ∧
      ∀ e ∈ (findNext n i best connfd).answer, Justified n events e := by
  simp only [findNext]
  split_ifs with hlt
  · simp only [MainPoint.answer, Option.toList_none, List.append_nil]
    refine ⟨⟨hlt, sizes, hsizes, hevents, hleast⟩, fun e he => ?_⟩
    cases he
  · have hn : sizes.length = n := by omega
    cases best with
    | none =>
      refine ⟨trivial, fun e he => ?_⟩
      obtain rfl := Option.some.inj he
      exact ⟨sizes, none, hn, hevents, hleast, rfl⟩
    | some b =>
      refine ⟨List.suffix_append _ _, fun e he => ?_⟩
      obtain rfl := Option.some.inj he
      exact ⟨sizes, some b, hn, hevents, hleast, rfl⟩

lemma mainCode_follows (h : mainCode n o d p = .next (d', p')) (hfacts : p.Facts n d)
    (hp : p.Follows n events) :
    p'.Follows n (events ++ (p.acceptance d p').toList) ∧
      ∀ e ∈ p.acceptance d p', Justified n events e := by
  have hstart : inspections [] <:+ events := List.nil_suffix
  cases p with
  | accepting =>
    simp only [mainCode] at h
    split at h <;> cases h
    exact findNext_follows (Nat.zero_le n) rfl hstart least_nil o.connfd
  | findLock i best connfd =>
    cases h
    obtain ⟨hi, sizes, hsizes, ⟨front, rfl⟩, hleast⟩ := hp
    refine ⟨⟨hi, sizes, hsizes, ⟨front, ?_⟩, hleast⟩, fun e he => ?_⟩
    · rw [inspections_concat, hsizes, ← List.append_assoc]
      rfl
    · obtain rfl := Option.some.inj he
      trivial
  | findUnlock i best size connfd =>
    cases h
    obtain ⟨hi, sizes, hsizes, hevents, hleast⟩ := hp
    refine findNext_follows hi ?_ hevents (hsizes ▸ hleast.better size) connfd
    rw [List.length_append, hsizes, List.length_singleton]
  | spin connfd =>
    cases h
    exact findNext_follows (Nat.zero_le n) rfl hstart least_nil connfd
  | addLock j connfd =>
    simp only [mainCode] at h
    split at h <;> cases h
    · exact absurd hfacts.2 (by omega)
    · refine ⟨trivial, fun e he => ?_⟩
      obtain rfl := Option.some.inj he
      exact ⟨rfl, hp⟩
  | addUnlockFull j connfd => exact hfacts.elim
  | addUnlock j connfd =>
    cases h
    refine ⟨trivial, fun e he => ?_⟩
    cases he

def AllJustified (n : ℕ) (events : List Acceptance) : Prop :=
  ∀ before e rest, events = before ++ e :: rest → Justified n before e

lemma AllJustified.append (h : AllJustified n events) {more : Option Acceptance}
    (hmore : ∀ e ∈ more, Justified n events e) : AllJustified n (events ++ more.toList) := by
  cases more with
  | none => rwa [Option.toList_none, List.append_nil]
  | some x =>
    intro before e rest heq
    rcases List.eq_nil_or_concat rest with rfl | ⟨rest', last, rfl⟩
    · obtain ⟨rfl, hx⟩ := List.append_inj' heq rfl
      obtain rfl := List.singleton_inj.mp hx
      exact hmore x rfl
    · rw [List.concat_eq_append, ← List.cons_append, ← List.append_assoc] at heq
      obtain ⟨rfl, -⟩ := List.append_inj' heq rfl
      exact h before e rest' rfl

section Runs

variable {C : Config} {s : Server C} {l : List (Thread C.nCores × Oracle)}

def acceptanceTrace (C : Config) (l : List (Thread C.nCores × Oracle)) : List Acceptance :=
  (server C).trace acceptances (initialState C) l

lemma run_justified (h : (server C).run (initialState C) l = some s) :
    AllJustified C.nCores (acceptanceTrace C l) ∧
      ∃ p, s.pc .main = .main p ∧ p.Follows C.nCores (acceptanceTrace C l) := by
  refine Program.run_induction (J := fun l s => AllJustified C.nCores (acceptanceTrace C l) ∧
    ∃ p, s.pc .main = .main p ∧ p.Follows C.nCores (acceptanceTrace C l)) ?_ ?_ h
  · refine ⟨fun before e rest heq => ?_, .accepting, rfl, trivial⟩
    exact absurd heq (by simp [acceptanceTrace, Program.trace])
  · rintro l a t o b hl ⟨hall, p, hp, hfollows⟩ he
    rw [acceptanceTrace, Program.trace_concat hl he]
    cases t with
    | main =>
      obtain ⟨_, d', pc', hc, rfl⟩ := Program.step_next he
      simp only [server, hp] at hc
      split at hc <;> cases hc
      rename_i p' hm
      obtain ⟨q, hq, hfacts⟩ := Reachable.mainFacts (Program.Reachable.run .init hl)
      obtain rfl : p = q := by
        rw [hp] at hq
        cases hq
        rfl
      obtain ⟨hnext, hjust⟩ := mainCode_follows hm hfacts hfollows
      have hrecord : acceptances a .main o ⟨d', Function.update a.pc .main (.main p'),
          Program.ownerAfter a.owner .main ((server C).op .main (a.pc .main))⟩ =
            (p.acceptance a.data p').toList := by
        simp only [acceptances, hp, Function.update_self]
      rw [hrecord]
      exact ⟨hall.append hjust, p', by simp, hnext⟩
    | worker w =>
      have hnone : acceptances a (.worker w) o b = [] := rfl
      rw [hnone, List.append_nil, Program.step_pc_ne he (by simp)]
      exact ⟨hall, p, hp, hfollows⟩

theorem accepted_connection_inserted {s : Server C} (h : (server C).run (initialState C) l = some s) :
    (∀ before e rest, acceptanceTrace C l = before ++ e :: rest → Justified C.nCores before e) ∧
    ∀ j fd o s', s.pc .main = .main (.addLock j fd) → (server C).step s .main o = .next s' →
      s'.pc .main = .main (.addUnlock j fd) ∧ (s'.data.pollSets j).slots.Has fd none :=
  ⟨(run_justified h).1, fun _ _ _ _ hp he => Reachable.inserts (Program.Reachable.run .init h) hp he⟩

theorem one_core_inserts :
    Justified 1 [inspected 0 1, returned (some 0)] (added 0 true) ∧
    ((after oneCore (List.replicate 4 (.main, anyOracle))).data.pollSets 0).slots.Has 7 none := by
  constructor
  · exact (accepted_connection_inserted (C := oneCore) (l := List.replicate 5 (.main, anyOracle))
      rfl).1 _ _ [] rfl
  · exact ((accepted_connection_inserted (C := oneCore) (l := List.replicate 3 (.main, anyOracle))
      rfl).2 0 7 anyOracle _ rfl rfl).2

end Runs

end SystemsLab.Reservation
