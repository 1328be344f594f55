import Mathlib.Data.List.Basic
import Mathlib.Tactic.SplitIfs

namespace SystemsLab.Streams

variable {α β K : Type*} [DecidableEq K] {kind : α → K} {k k' : K} {queue rest log : List α} {a : α}
  {f : α → β} {taken : List β}

def takeFirst (kind : α → K) (k : K) : List α → Option (α × List α)
  | [] => none
  | a :: queue =>
    if kind a = k then some (a, queue)
    else (takeFirst kind k queue).map fun (b, rest) => (b, a :: rest)

def channel (kind : α → K) (k : K) (queue : List α) : List α := queue.filter (kind · = k)

lemma channel_cons_self (queue : List α) (a : α) :
    channel kind (kind a) (a :: queue) = a :: channel kind (kind a) queue :=
  List.filter_cons_of_pos (decide_eq_true rfl)

lemma channel_cons_of_ne (h : kind a ≠ k) (queue : List α) :
    channel kind k (a :: queue) = channel kind k queue := by
  rw [channel, List.filter_cons, if_neg (by simpa using h)]
  rfl

lemma channel_concat (queue : List α) (a : α) :
    channel kind k (queue ++ [a]) = channel kind k queue ++ if kind a = k then [a] else [] := by
  rw [channel, channel, List.filter_append, List.filter_singleton]
  congr 1
  by_cases h : kind a = k <;> simp [h]

lemma channel_concat_of_ne (h : kind a ≠ k) (queue : List α) :
    channel kind k (queue ++ [a]) = channel kind k queue := by
  rw [channel_concat, if_neg h, List.append_nil]

lemma mem_channel : a ∈ channel kind k queue ↔ a ∈ queue ∧ kind a = k := by
  rw [channel, List.mem_filter, decide_eq_true_eq]

lemma takeFirst_eq_some (h : takeFirst kind k queue = some (a, rest)) :
    channel kind k queue = a :: channel kind k rest ∧
      ∀ k', k' ≠ k → channel kind k' queue = channel kind k' rest := by
  induction queue generalizing rest with
  | nil => cases h
  | cons b queue ih =>
    rw [takeFirst] at h
    split_ifs at h with hb
    · obtain ⟨rfl, rfl⟩ := Prod.mk.inj (Option.some.inj h)
      subst hb
      exact ⟨channel_cons_self _ _, fun k' hk' => channel_cons_of_ne hk'.symm _⟩
    · obtain ⟨⟨c, others⟩, hothers, heq⟩ := Option.map_eq_some_iff.mp h
      obtain ⟨rfl, rfl⟩ := Prod.mk.inj heq
      obtain ⟨hsame, hother⟩ := ih hothers
      refine ⟨?_, fun k' hk' => ?_⟩
      · rw [channel_cons_of_ne hb, channel_cons_of_ne hb, hsame]
      · rw [channel, channel, List.filter_cons, List.filter_cons, ← channel, ← channel, hother k' hk']

def Drawn (kind : α → K) (f : α → β) (k : K) (log : List α) (queue : Option (List α))
    (taken : List β) : Prop :=
  ∃ done pending, channel kind k log = done ++ pending ∧ done.map f = taken ∧
    ∀ q, queue = some q → channel kind k q = pending

namespace Drawn

lemma nil : Drawn kind f k [] (some []) [] := by
  refine ⟨[], [], rfl, rfl, fun q hq => ?_⟩
  obtain rfl := Option.some.inj hq
  rfl

lemma gone {queue : Option (List α)} (h : Drawn kind f k log queue taken) :
    Drawn kind f k log none taken := by
  obtain ⟨done, pending, hlog, htaken, -⟩ := h
  exact ⟨done, pending, hlog, htaken, nofun⟩

lemma post (h : Drawn kind f k log (some queue) taken) (a : α) :
    Drawn kind f k (log ++ [a]) (some (queue ++ [a])) taken := by
  obtain ⟨done, pending, hlog, htaken, hqueue⟩ := h
  refine ⟨done, pending ++ if kind a = k then [a] else [], ?_, htaken, fun q hq => ?_⟩
  · rw [channel_concat, hlog, List.append_assoc]
  · obtain rfl := Option.some.inj hq
    rw [channel_concat, hqueue queue rfl]

lemma take (h : Drawn kind f k log (some queue) taken)
    (htake : takeFirst kind k queue = some (a, rest)) :
    Drawn kind f k log (some rest) (taken ++ [f a]) := by
  obtain ⟨done, pending, hlog, rfl, hqueue⟩ := h
  obtain rfl := hqueue queue rfl
  refine ⟨done ++ [a], channel kind k rest, ?_, List.map_append, fun q hq => ?_⟩
  · rw [hlog, (takeFirst_eq_some htake).1, List.append_assoc, List.singleton_append]
  · rw [Option.some.inj hq]

lemma take_other (h : Drawn kind f k log (some queue) taken) (hk : k ≠ k')
    (htake : takeFirst kind k' queue = some (a, rest)) : Drawn kind f k log (some rest) taken := by
  obtain ⟨done, pending, hlog, htaken, hqueue⟩ := h
  refine ⟨done, pending, hlog, htaken, fun q hq => ?_⟩
  obtain rfl := Option.some.inj hq
  rw [← hqueue queue rfl, (takeFirst_eq_some htake).2 k hk]

lemma mem_log (h : Drawn kind f k log (some queue) taken)
    (htake : takeFirst kind k queue = some (a, rest)) : a ∈ log ∧ kind a = k := by
  obtain ⟨done, pending, hlog, -, hqueue⟩ := h
  apply mem_channel.mp
  rw [hlog, ← hqueue queue rfl, (takeFirst_eq_some htake).1]
  exact List.mem_append_right done List.mem_cons_self

end Drawn

end SystemsLab.Streams
