import Mathlib.Data.List.Basic
import Mathlib.Algebra.Order.Group.Nat

namespace SystemsLab.Streams

variable {α B : Type*} {n k limit : ℕ} {frame : α → List B} {got stream rest chunk : List B}
  {src dst src' dst' : List B} {packets : List α} {a : α}

/-- A call that moves `k` bytes, at least one and no more than there are or than `limit`. -/
def transfer (k limit : ℕ) (src dst : List B) : Option (List B × List B) :=
  if 0 < k ∧ k ≤ limit ∧ k ≤ src.length then some (src.drop k, dst ++ src.take k) else none

lemma transfer_eq_some (h : transfer k limit src dst = some (src', dst')) :
    ∃ chunk, src = chunk ++ src' ∧ dst' = dst ++ chunk ∧ 0 < chunk.length ∧ chunk.length ≤ limit := by
  simp only [transfer] at h
  split_ifs at h with hk
  obtain ⟨rfl, rfl⟩ := Prod.mk.inj (Option.some.inj h)
  refine ⟨src.take k, (List.take_append_drop k src).symm, rfl, ?_, ?_⟩
  · simp only [List.length_take]
    omega
  · simp only [List.length_take]
    omega

lemma exists_transfer (hlimit : 0 < limit) (hsrc : src ≠ []) (dst : List B) :
    ∃ r, transfer 1 limit src dst = some r := by
  have hlen := List.length_pos_iff.mpr hsrc
  exact ⟨_, if_pos ⟨Nat.one_pos, hlimit, hlen⟩⟩

def Carries (frame : α → List B) (got stream rest : List B) (packets : List α) : Prop :=
  got ++ stream ++ rest = packets.flatMap frame

namespace Carries

lemma read (h : Carries frame got (chunk ++ stream) rest packets) :
    Carries frame (got ++ chunk) stream rest packets := by
  simpa only [Carries, List.append_assoc] using h

lemma write (h : Carries frame got stream (chunk ++ rest) packets) :
    Carries frame got (stream ++ chunk) rest packets := by
  simpa only [Carries, List.append_assoc] using h

lemma send (h : Carries frame got stream [] packets) (a : α) :
    Carries frame got stream (frame a) (packets ++ [a]) := by
  simp only [Carries, List.append_nil] at h
  simp only [Carries, h, List.flatMap_append, List.flatMap_singleton]

lemma receive (hframe : ∀ a, (frame a).length = n) (hn : 0 < n) (hgot : got.length = n)
    (h : Carries frame got stream rest packets) :
    ∃ a packets', packets = a :: packets' ∧ got = frame a ∧ Carries frame [] stream rest packets' := by
  cases packets with
  | nil =>
    have hnil : got = [] := by
      simp only [Carries, List.flatMap_nil, List.append_eq_nil_iff] at h
      exact h.1.1
    rw [hnil, List.length_nil] at hgot
    omega
  | cons a packets =>
    rw [Carries, List.append_assoc, List.flatMap_cons] at h
    obtain ⟨hfirst, hothers⟩ := List.append_inj h (hgot.trans (hframe a).symm)
    exact ⟨a, packets, rfl, hfirst, hothers⟩

lemma eq_nil (hframe : ∀ a, (frame a).length = n) (hgot : got.length < n)
    (h : Carries frame got [] [] packets) : packets = [] ∧ got = [] := by
  rw [Carries, List.append_nil, List.append_nil] at h
  cases packets with
  | nil => exact ⟨rfl, h⟩
  | cons a packets =>
    have hlen := hframe a
    rw [h, List.flatMap_cons, List.length_append] at hgot
    omega

lemma of_nil (h : Carries frame got stream rest []) : got = [] ∧ stream = [] ∧ rest = [] := by
  simp only [Carries, List.flatMap_nil, List.append_eq_nil_iff] at h
  exact ⟨h.1.1, h.1.2, h.2⟩

end Carries

inductive Outstanding (request : α → Bool) : ℕ → List α → ℕ → Prop
  | idle {packets : List α} (h : ∀ a ∈ packets, request a = false) : Outstanding request 0 packets 0
  | sent {packets : List α} {a : α} (h : ∀ a ∈ packets, request a = false) (ha : request a = true) :
    Outstanding request 1 (packets ++ [a]) 0
  | answered : Outstanding request 1 [] 1

namespace Outstanding

variable {request : α → Bool} {waiting answers : ℕ}

lemma send (h : Outstanding request 0 packets answers) (a : α) :
    Outstanding request (if request a then 1 else 0) (packets ++ [a]) answers := by
  cases h with
  | idle h =>
    cases ha : request a with
    | true => exact sent h ha
    | false =>
      refine idle fun b hb => ?_
      rcases List.mem_append.mp hb with hb | hb
      · exact h b hb
      · rwa [List.mem_singleton.mp hb]

lemma answer (h : Outstanding request waiting (a :: packets) answers) (ha : request a = true) :
    Outstanding request waiting packets (answers + 1) := by
  generalize hpackets : a :: packets = l at h
  cases h with
  | idle h =>
    rw [← hpackets] at h
    cases ha.symm.trans (h a List.mem_cons_self)
  | @sent earlier b h hb =>
    cases earlier with
    | nil =>
      obtain ⟨-, rfl⟩ := List.cons.inj hpackets
      exact answered
    | cons c earlier =>
      obtain ⟨rfl, -⟩ := List.cons.inj hpackets
      cases ha.symm.trans (h a List.mem_cons_self)
  | answered => cases hpackets

lemma take (h : Outstanding request waiting (a :: packets) answers) (ha : request a = false) :
    Outstanding request waiting packets answers := by
  generalize hpackets : a :: packets = l at h
  cases h with
  | idle h =>
    rw [← hpackets] at h
    exact idle fun b hb => h b (List.mem_cons_of_mem a hb)
  | @sent earlier b h hb =>
    cases earlier with
    | nil =>
      obtain ⟨rfl, -⟩ := List.cons.inj hpackets
      cases hb.symm.trans ha
    | cons c earlier =>
      obtain ⟨rfl, rfl⟩ := List.cons.inj hpackets
      exact sent (fun d hd => h d (List.mem_cons_of_mem a hd)) hb
  | answered => cases hpackets

lemma settle (h : Outstanding request waiting packets (answers + 1)) :
    packets = [] ∧ Outstanding request 0 packets answers := by
  cases h with
  | answered => exact ⟨rfl, idle nofun⟩

lemma answers_eq (h : Outstanding request 0 packets answers) : answers = 0 := by
  cases h with
  | idle => rfl

lemma waiting_eq (h : Outstanding request waiting [] 0) : waiting = 0 := by
  generalize hpackets : ([] : List α) = l at h
  cases h with
  | idle => rfl
  | sent => exact (List.append_ne_nil_of_right_ne_nil _ (List.cons_ne_nil _ _) hpackets.symm).elim

end Outstanding

end SystemsLab.Streams
