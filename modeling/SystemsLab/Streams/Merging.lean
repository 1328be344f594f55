import Mathlib.Data.List.TakeDrop
import Mathlib.Data.List.TakeWhile
import Mathlib.Order.Defs.LinearOrder
import Mathlib.Order.Lattice

namespace SystemsLab.Streams

variable {α β κ : Type*} [LinearOrder κ] {key : α → κ} {ka : α → κ} {kb : β → κ} {k : κ}
  {l as : List α} {bs : List β} {a : α} {test : List α → List β → Bool}

def Sorted (key : α → κ) (l : List α) : Prop := l.Pairwise fun a b => key a ≤ key b

def group (key : α → κ) (k : κ) (l : List α) : List α := l.filter (key · = k)

def dropGroup (key : α → κ) (k : κ) (l : List α) : List α := l.dropWhile (key · = k)

def takeGroup (key : α → κ) (k : κ) (l : List α) : List α := l.takeWhile (key · = k)

lemma dropGroup_cons_of_eq (h : key a = k) (l : List α) :
    dropGroup key k (a :: l) = dropGroup key k l := by
  simp [dropGroup, h]

lemma dropGroup_cons_of_ne (h : key a ≠ k) (l : List α) : dropGroup key k (a :: l) = a :: l := by
  simp [dropGroup, h]

lemma takeGroup_cons_of_eq (h : key a = k) (l : List α) :
    takeGroup key k (a :: l) = a :: takeGroup key k l := by
  simp [takeGroup, h]

lemma takeGroup_cons_of_ne (h : key a ≠ k) (l : List α) : takeGroup key k (a :: l) = [] := by
  simp [takeGroup, h]

lemma dropGroup_eq_self (h : ∀ a ∈ l, key a ≠ k) : dropGroup key k l = l := by
  cases l with
  | nil => rfl
  | cons a l => exact dropGroup_cons_of_ne (h a List.mem_cons_self) l

lemma length_dropGroup_le (key : α → κ) (k : κ) (l : List α) :
    (dropGroup key k l).length ≤ l.length :=
  List.length_dropWhile_le _ l

lemma dropGroup_sublist (key : α → κ) (k : κ) (l : List α) : (dropGroup key k l).Sublist l :=
  (List.dropWhile_suffix _).sublist

lemma Sorted.dropGroup (h : Sorted key l) (k : κ) : Sorted key (dropGroup key k l) :=
  h.sublist (dropGroup_sublist key k l)

lemma Sorted.le (h : Sorted key (a :: l)) : ∀ b ∈ l, key a ≤ key b := (List.pairwise_cons.mp h).1

lemma Sorted.tail (h : Sorted key (a :: l)) : Sorted key l := (List.pairwise_cons.mp h).2

lemma mem_group : a ∈ group key k l ↔ a ∈ l ∧ key a = k := by simp [group]

lemma group_eq_nil (h : ∀ a ∈ l, key a ≠ k) : group key k l = [] := by
  simpa [group] using h

lemma lt_of_mem_dropGroup (h : Sorted key l) (hk : ∀ a ∈ l, k ≤ key a)
    (ha : a ∈ dropGroup key k l) : k < key a := by
  induction l with
  | nil => cases ha
  | cons b l ih =>
    by_cases hkey : key b = k
    · rw [dropGroup_cons_of_eq hkey] at ha
      exact ih h.tail (fun c hc => hk c (List.mem_cons_of_mem b hc)) ha
    · rw [dropGroup_cons_of_ne hkey] at ha
      have hlt : k < key b := lt_of_le_of_ne (hk b List.mem_cons_self) (Ne.symm hkey)
      rcases List.mem_cons.mp ha with rfl | ha
      · exact hlt
      · exact hlt.trans_le (h.le a ha)

lemma takeGroup_append_dropGroup (key : α → κ) (k : κ) (l : List α) :
    takeGroup key k l ++ dropGroup key k l = l := List.takeWhile_append_dropWhile

lemma key_of_mem_takeGroup (h : a ∈ takeGroup key k l) : key a = k := by
  simpa using List.mem_takeWhile_imp h

lemma takeGroup_eq_group (h : Sorted key l) (hk : ∀ a ∈ l, k ≤ key a) :
    takeGroup key k l = group key k l := by
  have hrest : group key k (dropGroup key k l) = [] :=
    group_eq_nil fun a ha => (lt_of_mem_dropGroup h hk ha).ne'
  have hfront : group key k (takeGroup key k l) = takeGroup key k l := by
    rw [group, List.filter_eq_self]
    exact fun a ha => by simpa using key_of_mem_takeGroup ha
  conv_rhs => rw [← takeGroup_append_dropGroup key k l]
  rw [group, List.filter_append, ← group, ← group, hrest, hfront, List.append_nil]

lemma group_dropGroup {k' : κ} (hne : k' ≠ k) (l : List α) :
    group key k' (dropGroup key k l) = group key k' l := by
  have hfront : group key k' (takeGroup key k l) = [] :=
    group_eq_nil fun a ha heq => hne (heq.symm.trans (key_of_mem_takeGroup ha))
  conv_rhs => rw [← takeGroup_append_dropGroup key k l]
  rw [group, group, List.filter_append]
  exact (congrArg (· ++ group key k' (dropGroup key k l)) hfront).symm

lemma group_cons_of_ne {k' : κ} (hne : key a ≠ k') (l : List α) :
    group key k' (a :: l) = group key k' l := by
  simp [group, hne]

def groupKeys (key : α → κ) : List α → List κ
  | [] => []
  | a :: l => key a :: groupKeys key (dropGroup key (key a) l)
termination_by l => l.length
decreasing_by exact Nat.lt_succ_of_le (length_dropGroup_le key (key a) l)

lemma mem_groupKeys (key : α → κ) (l : List α) : k ∈ groupKeys key l ↔ ∃ a ∈ l, key a = k := by
  fun_induction groupKeys key l with
  | case1 => simp
  | case2 a l ih =>
    rw [List.mem_cons, ih]
    constructor
    · rintro (rfl | ⟨b, hb, rfl⟩)
      · exact ⟨a, List.mem_cons_self, rfl⟩
      · exact ⟨b, List.mem_cons_of_mem a ((dropGroup_sublist key _ l).subset hb), rfl⟩
    · rintro ⟨b, hb, rfl⟩
      by_cases hkey : key b = key a
      · exact Or.inl hkey
      · have hmem : b ∈ group key (key b) l :=
          mem_group.mpr ⟨(List.mem_cons.mp hb).resolve_left fun h => hkey (h ▸ rfl), rfl⟩
        rw [← group_dropGroup hkey] at hmem
        exact Or.inr ⟨b, (mem_group.mp hmem).1, rfl⟩

lemma groupKeys_sorted (h : Sorted key l) : (groupKeys key l).Pairwise (· < ·) := by
  fun_induction groupKeys key l with
  | case1 => exact List.Pairwise.nil
  | case2 a l ih =>
    refine List.Pairwise.cons (fun k hk => ?_) (ih (h.tail.dropGroup _))
    obtain ⟨b, hb, rfl⟩ := (mem_groupKeys key _).mp hk
    exact lt_of_mem_dropGroup h.tail h.le hb

def mergeGroups (ka : α → κ) (kb : β → κ) (test : List α → List β → Bool) :
    List α → List β → List κ
  | [], _ => []
  | _ :: _, [] => []
  | a :: as, b :: bs =>
    if ka a < kb b then mergeGroups ka kb test (dropGroup ka (ka a) as) (b :: bs)
    else if kb b < ka a then mergeGroups ka kb test (a :: as) (dropGroup kb (kb b) bs)
    else
      (if test (a :: takeGroup ka (ka a) as) (b :: takeGroup kb (kb b) bs) then [ka a] else []) ++
        mergeGroups ka kb test (dropGroup ka (ka a) as) (dropGroup kb (kb b) bs)
termination_by as bs => as.length + bs.length
decreasing_by
  · have hle := length_dropGroup_le ka (ka a) as
    simp only [List.length_cons]
    omega
  · have hle := length_dropGroup_le kb (kb b) bs
    simp only [List.length_cons]
    omega
  · have hle := length_dropGroup_le ka (ka a) as
    have hle' := length_dropGroup_le kb (kb b) bs
    simp only [List.length_cons]
    omega

lemma mergeGroups_nil_left (bs : List β) : mergeGroups ka kb test [] bs = [] := by
  rw [mergeGroups]

lemma mergeGroups_nil_right (as : List α) : mergeGroups ka kb test as [] = [] := by
  cases as with
  | nil => exact mergeGroups_nil_left []
  | cons a as => rw [mergeGroups]

def Passes (ka : α → κ) (kb : β → κ) (test : List α → List β → Bool) (as : List α) (bs : List β)
    (k : κ) : Prop :=
  group ka k as ≠ [] ∧ group kb k bs ≠ [] ∧ test (group ka k as) (group kb k bs) = true

lemma Passes.exists_left (h : Passes ka kb test as bs k) : ∃ a ∈ as, ka a = k := by
  obtain ⟨a, ha⟩ := List.exists_mem_of_ne_nil _ h.1
  exact ⟨a, mem_group.mp ha⟩

lemma Passes.exists_right (h : Passes ka kb test as bs k) : ∃ b ∈ bs, kb b = k := by
  obtain ⟨b, hb⟩ := List.exists_mem_of_ne_nil _ h.2.1
  exact ⟨b, mem_group.mp hb⟩

lemma group_front (h : Sorted key (a :: l)) :
    a :: takeGroup key (key a) l = group key (key a) (a :: l) := by
  rw [takeGroup_eq_group h.tail h.le]
  simp [group]

lemma not_passes_right {b : β} (hb : Sorted kb (b :: bs)) (hlt : k < kb b) :
    ¬Passes ka kb test as (b :: bs) k := by
  intro h
  obtain ⟨c, hc, rfl⟩ := h.exists_right
  rcases List.mem_cons.mp hc with rfl | hc
  · exact lt_irrefl _ hlt
  · exact absurd (hb.le c hc) (not_le.mpr hlt)

lemma not_passes_left (ha : Sorted ka (a :: as)) (hlt : k < ka a) :
    ¬Passes ka kb test (a :: as) bs k := by
  intro h
  obtain ⟨c, hc, rfl⟩ := h.exists_left
  rcases List.mem_cons.mp hc with rfl | hc
  · exact lt_irrefl _ hlt
  · exact absurd (ha.le c hc) (not_le.mpr hlt)

lemma passes_congr {as' : List α} {bs' : List β} (ha : group ka k as = group ka k as')
    (hb : group kb k bs = group kb k bs') :
    Passes ka kb test as bs k ↔ Passes ka kb test as' bs' k := by
  rw [Passes, Passes, ha, hb]

theorem mem_mergeGroups (ha : Sorted ka as) (hb : Sorted kb bs) :
    k ∈ mergeGroups ka kb test as bs ↔ Passes ka kb test as bs k := by
  fun_induction mergeGroups ka kb test as bs with
  | case1 bs => simp [Passes, group]
  | case2 a as => simp [Passes, group]
  | case3 a as b bs hlt ih =>
    rw [ih (ha.tail.dropGroup _) hb]
    by_cases hk : k = ka a
    · subst hk
      exact iff_of_false (not_passes_right hb hlt) (not_passes_right hb hlt)
    · refine passes_congr ?_ rfl
      rw [group_dropGroup hk, group_cons_of_ne (Ne.symm hk)]
  | case4 a as b bs _ hlt ih =>
    rw [ih ha (hb.tail.dropGroup _)]
    by_cases hk : k = kb b
    · subst hk
      exact iff_of_false (not_passes_left ha hlt) (not_passes_left ha hlt)
    · refine passes_congr rfl ?_
      rw [group_dropGroup hk, group_cons_of_ne (Ne.symm hk)]
  | case5 a as b bs hle hge ih =>
    have heq : ka a = kb b := le_antisymm (not_lt.mp hge) (not_lt.mp hle)
    rw [List.mem_append, ih (ha.tail.dropGroup _) (hb.tail.dropGroup _), group_front ha, group_front hb]
    by_cases hk : k = ka a
    · have hrest : ¬Passes ka kb test (dropGroup ka (ka a) as) (dropGroup kb (kb b) bs) k := by
        intro h
        obtain ⟨c, hc, hck⟩ := h.exists_left
        exact absurd (hck.trans hk) (lt_of_mem_dropGroup ha.tail ha.le hc).ne'
      have hne : group ka (ka a) (a :: as) ≠ [] := by simp [group]
      have hne' : group kb (kb b) (b :: bs) ≠ [] := by simp [group]
      rw [or_iff_left hrest, hk, Passes, heq]
      rw [heq] at hne
      by_cases htest : test (group ka (kb b) (a :: as)) (group kb (kb b) (b :: bs)) = true
      · simp [htest, hne, hne']
      · simp [htest]
    · have hnot : k ∉ if test (group ka (ka a) (a :: as)) (group kb (kb b) (b :: bs)) = true
          then [ka a] else [] := by
        split_ifs <;> simp [hk]
      rw [or_iff_right hnot]
      refine passes_congr ?_ ?_
      · rw [group_dropGroup hk, group_cons_of_ne (Ne.symm hk)]
      · rw [group_dropGroup (heq ▸ hk), group_cons_of_ne (heq ▸ Ne.symm hk)]

theorem mergeGroups_sorted (ha : Sorted ka as) (hb : Sorted kb bs) :
    (mergeGroups ka kb test as bs).Pairwise (· < ·) := by
  fun_induction mergeGroups ka kb test as bs with
  | case1 bs => exact List.Pairwise.nil
  | case2 a as => exact List.Pairwise.nil
  | case3 a as b bs hlt ih => exact ih (ha.tail.dropGroup _) hb
  | case4 a as b bs _ hlt ih => exact ih ha (hb.tail.dropGroup _)
  | case5 a as b bs hle hge ih =>
    have hrest := ih (ha.tail.dropGroup _) (hb.tail.dropGroup _)
    split_ifs
    · refine List.Pairwise.cons (fun k hk => ?_) hrest
      have hpass := (mem_mergeGroups (ha.tail.dropGroup _) (hb.tail.dropGroup _)).mp hk
      obtain ⟨c, hc, rfl⟩ := hpass.exists_left
      exact lt_of_mem_dropGroup ha.tail ha.le hc
    · exact hrest

section Common

variable {ls rs : List κ}

def common (ls rs : List κ) : List κ := mergeGroups id id (fun _ _ => true) ls rs

lemma sorted_of_lt (h : ls.Pairwise (· < ·)) : Sorted id ls := h.imp fun hlt => hlt.le

lemma mem_common (hl : ls.Pairwise (· < ·)) (hr : rs.Pairwise (· < ·)) :
    k ∈ common ls rs ↔ k ∈ ls ∧ k ∈ rs := by
  have hgroup : ∀ l : List κ, group id k l ≠ [] ↔ k ∈ l := by
    intro l
    simp [group]
  rw [common, mem_mergeGroups (sorted_of_lt hl) (sorted_of_lt hr), Passes, hgroup, hgroup]
  simp

lemma common_sorted (hl : ls.Pairwise (· < ·)) (hr : rs.Pairwise (· < ·)) :
    (common ls rs).Pairwise (· < ·) :=
  mergeGroups_sorted (sorted_of_lt hl) (sorted_of_lt hr)

lemma common_nil_left (rs : List κ) : common [] rs = [] := mergeGroups_nil_left rs

lemma common_nil_right (ls : List κ) : common ls [] = [] := mergeGroups_nil_right ls

lemma common_cons {a b : κ} (hl : (a :: ls).Pairwise (· < ·)) (hr : (b :: rs).Pairwise (· < ·)) :
    common (a :: ls) (b :: rs) =
      if a < b then common ls (b :: rs) else if b < a then common (a :: ls) rs
      else a :: common ls rs := by
  have hleft : dropGroup id a ls = ls :=
    dropGroup_eq_self fun c hc => ((List.pairwise_cons.mp hl).1 c hc).ne'
  have hright : dropGroup id b rs = rs :=
    dropGroup_eq_self fun c hc => ((List.pairwise_cons.mp hr).1 c hc).ne'
  rw [common, mergeGroups]
  simp only [id_eq, hleft, hright, if_true]
  rfl

end Common

end SystemsLab.Streams
