import Mathlib.Logic.Function.Basic

namespace SystemsLab

/-- `flag n` is `none` for a name that is not registered. -/
structure Registry (H N : Type*) where
  flag : N → Option Bool
  holds : H → Option N

namespace Registry

variable {H N : Type*}

structure Consistent (r : Registry H N) : Prop where
  unique : ∀ {h h' n}, r.holds h = some n → r.holds h' = some n → h = h'
  held : ∀ {h n}, r.holds h = some n → r.flag n = some true
  holder : ∀ {n}, r.flag n = some true → ∃ h, r.holds h = some n

inductive Step [DecidableEq H] [DecidableEq N] (r r' : Registry H N) : Prop
  | idle (hf : r'.flag = r.flag) (hh : r'.holds = r.holds)
  | register (n : N) (hn : r.flag n = none)
      (hf : r'.flag = Function.update r.flag n (some false)) (hh : r'.holds = r.holds)
  | acquire (h : H) (n : N) (hfree : r.holds h = none) (hn : r.flag n = some false)
      (hf : r'.flag = Function.update r.flag n (some true))
      (hh : r'.holds = Function.update r.holds h (some n))
  | release (h : H) (n : N) (hn : r.holds h = some n)
      (hf : r'.flag = Function.update r.flag n (some false))
      (hh : r'.holds = Function.update r.holds h none)
  | move (h h' : H) (hfree : r.holds h' = none) (hf : r'.flag = r.flag)
      (hh : r'.holds = Function.update (Function.update r.holds h' (r.holds h)) h none)

namespace Consistent

variable {r r' : Registry H N}

lemma idle (hr : Consistent r) (hf : r'.flag = r.flag) (hh : r'.holds = r.holds) :
    Consistent r' where
  unique h₁ h₂ := by
    rw [hh] at h₁ h₂
    exact hr.unique h₁ h₂
  held h := by
    rw [hh] at h
    rw [hf]
    exact hr.held h
  holder h := by
    rw [hf] at h
    rw [hh]
    exact hr.holder h

lemma taken_iff (hr : Consistent r) {n : N} : r.flag n = some true ↔ ∃! h, r.holds h = some n := by
  constructor
  · intro hn
    obtain ⟨h, hh⟩ := hr.holder hn
    exact ⟨h, hh, fun k hk => hr.unique hk hh⟩
  · rintro ⟨h, hh, -⟩
    exact hr.held hh

variable [DecidableEq H]

lemma move_iff {f : H → Option N} {h h' k : H} {n : N} :
    Function.update (Function.update f h' (f h)) h none k = some n ↔
      k ≠ h ∧ f (if k = h' then h else k) = some n := by
  by_cases hk : k = h
  · simp [hk]
  · by_cases hk' : k = h'
    · have hne : h' ≠ h := fun he => hk (hk'.trans he)
      simp [hk', hne]
    · simp [hk, hk']

lemma move (hr : Consistent r) {h h' : H} (hfree : r.holds h' = none) (hf : r'.flag = r.flag)
    (hh : r'.holds = Function.update (Function.update r.holds h' (r.holds h)) h none) :
    Consistent r' := by
  refine ⟨?_, ?_, ?_⟩
  · intro k k' m hk hk'
    rw [hh, move_iff] at hk hk'
    have he := hr.unique hk.2 hk'.2
    by_cases h₁ : k = h' <;> by_cases h₂ : k' = h'
    · rw [h₁, h₂]
    · rw [if_pos h₁, if_neg h₂] at he
      exact absurd he.symm hk'.1
    · rw [if_neg h₁, if_pos h₂] at he
      exact absurd he hk.1
    · rw [if_neg h₁, if_neg h₂] at he
      exact he
  · intro k m hk
    rw [hh, move_iff] at hk
    rw [hf]
    exact hr.held hk.2
  · intro m hm
    rw [hf] at hm
    obtain ⟨k, hk⟩ := hr.holder hm
    have hne : k ≠ h' := by
      rintro rfl
      rw [hfree] at hk
      cases hk
    by_cases hkh : k = h
    · subst k
      exact ⟨h', by rw [hh, move_iff, if_pos rfl]; exact ⟨hne.symm, hk⟩⟩
    · exact ⟨k, by rw [hh, move_iff, if_neg hne]; exact ⟨hkh, hk⟩⟩

variable [DecidableEq N]

omit [DecidableEq H] in
lemma register (hr : Consistent r) {n : N} (hn : r.flag n = none)
    (hf : r'.flag = Function.update r.flag n (some false)) (hh : r'.holds = r.holds) :
    Consistent r' where
  unique h₁ h₂ := by
    rw [hh] at h₁ h₂
    exact hr.unique h₁ h₂
  held {h m} hm := by
    rw [hh] at hm
    have hne : m ≠ n := by
      rintro rfl
      rw [hr.held hm] at hn
      cases hn
    rw [hf, Function.update_of_ne hne]
    exact hr.held hm
  holder {m} hm := by
    rw [hf] at hm
    have hne : m ≠ n := by
      rintro rfl
      simp at hm
    rw [Function.update_of_ne hne] at hm
    rw [hh]
    exact hr.holder hm

lemma acquire (hr : Consistent r) {h : H} {n : N} (hfree : r.holds h = none)
    (hn : r.flag n = some false) (hf : r'.flag = Function.update r.flag n (some true))
    (hh : r'.holds = Function.update r.holds h (some n)) : Consistent r' := by
  have hnone : ∀ k, r.holds k ≠ some n := by
    intro k hk
    rw [hr.held hk] at hn
    cases hn
  refine ⟨?_, ?_, ?_⟩
  · intro k k' m hk hk'
    rw [hh] at hk hk'
    by_cases h₁ : k = h <;> by_cases h₂ : k' = h
    · rw [h₁, h₂]
    · rw [h₁, Function.update_self, Option.some.injEq] at hk
      rw [Function.update_of_ne h₂, ← hk] at hk'
      exact absurd hk' (hnone k')
    · rw [h₂, Function.update_self, Option.some.injEq] at hk'
      rw [Function.update_of_ne h₁, ← hk'] at hk
      exact absurd hk (hnone k)
    · rw [Function.update_of_ne h₁] at hk
      rw [Function.update_of_ne h₂] at hk'
      exact hr.unique hk hk'
  · intro k m hk
    rw [hh] at hk
    rw [hf]
    by_cases h₁ : k = h
    · rw [h₁, Function.update_self, Option.some.injEq] at hk
      rw [← hk, Function.update_self]
    · rw [Function.update_of_ne h₁] at hk
      have hne : m ≠ n := fun he => hnone k (he ▸ hk)
      rw [Function.update_of_ne hne]
      exact hr.held hk
  · intro m hm
    rw [hf] at hm
    rw [hh]
    by_cases h₁ : m = n
    · exact ⟨h, by rw [h₁, Function.update_self]⟩
    · rw [Function.update_of_ne h₁] at hm
      obtain ⟨k, hk⟩ := hr.holder hm
      have hne : k ≠ h := by
        rintro rfl
        rw [hfree] at hk
        cases hk
      exact ⟨k, by rw [Function.update_of_ne hne, hk]⟩

lemma release (hr : Consistent r) {h : H} {n : N} (hn : r.holds h = some n)
    (hf : r'.flag = Function.update r.flag n (some false))
    (hh : r'.holds = Function.update r.holds h none) : Consistent r' := by
  have hother : ∀ {k m}, r'.holds k = some m → k ≠ h ∧ r.holds k = some m := by
    intro k m hk
    rw [hh] at hk
    have hne : k ≠ h := by
      rintro rfl
      simp at hk
    rw [Function.update_of_ne hne] at hk
    exact ⟨hne, hk⟩
  refine ⟨?_, ?_, ?_⟩
  · intro k k' m hk hk'
    exact hr.unique (hother hk).2 (hother hk').2
  · intro k m hk
    obtain ⟨hne, hk⟩ := hother hk
    have hm : m ≠ n := by
      rintro rfl
      exact hne (hr.unique hk hn)
    rw [hf, Function.update_of_ne hm]
    exact hr.held hk
  · intro m hm
    rw [hf] at hm
    have hne : m ≠ n := by
      rintro rfl
      simp at hm
    rw [Function.update_of_ne hne] at hm
    obtain ⟨k, hk⟩ := hr.holder hm
    refine ⟨k, ?_⟩
    have hkh : k ≠ h := by
      rintro rfl
      rw [hn] at hk
      exact hne (Option.some.inj hk).symm
    rw [hh, Function.update_of_ne hkh, hk]

lemma step (hr : Consistent r) (hs : Step r r') : Consistent r' := by
  cases hs with
  | idle hf hh => exact hr.idle hf hh
  | register n hn hf hh => exact hr.register hn hf hh
  | acquire h n hfree hn hf hh => exact hr.acquire hfree hn hf hh
  | release h n hn hf hh => exact hr.release hn hf hh
  | move h h' hfree hf hh => exact hr.move hfree hf hh

end Consistent

section Sectors

variable {W I : Type*}

def sector (r : Registry (W × I) N) (w : W) : Registry I N :=
  ⟨r.flag, fun i => r.holds (w, i)⟩

variable [DecidableEq W] [DecidableEq I]

lemma holds_update {r r' : Registry (W × I) N} {w : W} {i : I} {x : Option N}
    (ho : ∀ v ≠ w, ∀ j, r'.holds (v, j) = r.holds (v, j))
    (hh : (r'.sector w).holds = Function.update (r.sector w).holds i x) :
    r'.holds = Function.update r.holds (w, i) x := by
  funext ⟨v, j⟩
  by_cases hv : v = w
  · subst v
    have hj := congrFun hh j
    by_cases hij : j = i
    · subst j
      simpa [sector] using hj
    · rw [Function.update_of_ne hij] at hj
      rw [Function.update_of_ne (by simp [hij])]
      exact hj
  · rw [Function.update_of_ne (by simp [hv])]
    exact ho v hv j

lemma Step.of_sector [DecidableEq N] {r r' : Registry (W × I) N} {w : W} (hs : Step (r.sector w) (r'.sector w))
    (ho : ∀ v ≠ w, ∀ j, r'.holds (v, j) = r.holds (v, j)) : Step r r' := by
  have hsame : (r'.sector w).holds = (r.sector w).holds → r'.holds = r.holds := by
    intro hh
    funext ⟨v, j⟩
    by_cases hv : v = w
    · subst v
      exact congrFun hh j
    · exact ho v hv j
  cases hs with
  | idle hf hh => exact .idle hf (hsame hh)
  | register n hn hf hh => exact .register n hn hf (hsame hh)
  | acquire h n hfree hn hf hh => exact .acquire (w, h) n hfree hn hf (holds_update ho hh)
  | release h n hn hf hh => exact .release (w, h) n hn hf (holds_update ho hh)
  | move h h' hfree hf hh =>
    refine .move (w, h) (w, h') hfree hf ?_
    let q : Registry (W × I) N := ⟨r.flag, Function.update r.holds (w, h') (r.holds (w, h))⟩
    refine holds_update (r := q) (fun v hv j => ?_) ?_
    · rw [ho v hv j]
      exact (Function.update_of_ne (by simp [hv]) _ _).symm
    · rw [hh]
      congr 1
      funext j
      by_cases hj : j = h' <;> simp [q, sector, hj]

end Sectors

end Registry

end SystemsLab
