import Mathlib.Data.List.TakeWhile
import Mathlib.Data.List.Basic

namespace SystemsLab.Streams

variable {α : Type*} {ends : α → Bool} {a : α} {stream : List α}

def segments (ends : α → Bool) : List α → List (List α)
  | [] => []
  | a :: stream =>
    if ends a then [a] :: segments ends stream
    else
      match segments ends stream with
      | [] => [[a]]
      | segment :: more => (a :: segment) :: more

lemma segments_end (h : ends a = true) :
    segments ends (a :: stream) = [a] :: segments ends stream := by
  simp [segments, h]

lemma segments_inside (h : ends a = false) :
    segments ends (a :: stream) =
      (a :: (segments ends stream).headD []) :: (segments ends stream).tail := by
  rw [segments, if_neg (by simp [h])]
  cases segments ends stream with
  | nil => rfl
  | cons segment more => rfl

@[simp] lemma flatten_segments (ends : α → Bool) (stream : List α) :
    (segments ends stream).flatten = stream := by
  induction stream with
  | nil => rfl
  | cons a stream ih =>
    rcases Bool.eq_false_or_eq_true (ends a) with h | h
    · rw [segments_end h, List.flatten_cons, ih, List.singleton_append]
    · rw [segments_inside h, List.flatten_cons, List.cons_append]
      congr 1
      cases hsegments : segments ends stream with
      | nil => simpa [hsegments] using ih
      | cons segment more => simpa [hsegments] using ih

lemma segments_split (hne : stream ≠ []) :
    segments ends stream = stream.take ((stream.takeWhile (!ends ·)).length + 1) ::
      segments ends (stream.drop ((stream.takeWhile (!ends ·)).length + 1)) := by
  induction stream with
  | nil => exact absurd rfl hne
  | cons a stream ih =>
    rcases Bool.eq_false_or_eq_true (ends a) with h | h
    · rw [segments_end h, List.takeWhile_cons_of_neg (by simp [h])]
      rfl
    · rw [segments_inside h, List.takeWhile_cons_of_pos (by simp [h]), List.length_cons,
        List.take_succ_cons, List.drop_succ_cons]
      rcases eq_or_ne stream [] with rfl | hrest
      · rfl
      · rw [ih hrest]
        rfl

lemma segments_append_front {front segment : List α} {more : List (List α)}
    (hfront : ∀ a ∈ front, ends a = false) (h : segments ends stream = segment :: more) :
    segments ends (front ++ stream) = (front ++ segment) :: more := by
  induction front with
  | nil => exact h
  | cons a front ih =>
    rw [List.cons_append, segments_inside (hfront a List.mem_cons_self),
      ih fun b hb => hfront b (List.mem_cons_of_mem a hb)]
    rfl

end SystemsLab.Streams
