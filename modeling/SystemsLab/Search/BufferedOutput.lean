import SystemsLab.CLib.Numerals
import SystemsLab.Search.OutBuf
import Mathlib.Data.List.Induction

namespace SystemsLab.Search

open CLib OutBuf

section Numerals

structure Canonical (text : Bytes) (value : ℕ) : Prop where
  digits : Digits text
  reads : digitsValue text = value
  head : text.head? = some 48 → text = [48]

variable {n : ℕ} {d : UInt8} {ds : Bytes}

lemma digitsValue_concat (ds : Bytes) (d : UInt8) :
    digitsValue (ds ++ [d]) = 10 * digitsValue ds + (d.toNat - 48) := by
  rw [digitsValue, List.foldl_append]
  rfl

lemma toNat_digit (n : ℕ) : (UInt8.ofNat (48 + n % 10)).toNat = 48 + n % 10 := by
  rw [UInt8.toNat_ofNat', Nat.mod_eq_of_lt (by omega)]

lemma isDigit_digit (n : ℕ) : isDigit (UInt8.ofNat (48 + n % 10)) = true := by
  simp only [isDigit, Bool.and_eq_true, decide_eq_true_eq, UInt8.le_iff_toNat_le, toNat_digit,
    UInt8.reduceToNat]
  omega

lemma isDigit_of_mem_digitsOf : ∀ d ∈ digitsOf n, isDigit d = true := by
  fun_induction digitsOf n with
  | case1 =>
    intro d hd
    cases hd
  | case2 n hn ih =>
    intro d hd
    rcases List.mem_cons.mp hd with rfl | hd
    · exact isDigit_digit n
    · exact ih d hd

lemma digitsValue_digitsOf (n : ℕ) : digitsValue (digitsOf n).reverse = n := by
  fun_induction digitsOf n with
  | case1 => rfl
  | case2 n hn ih =>
    rw [List.reverse_cons, digitsValue_concat, ih, toNat_digit]
    omega

lemma head_digitsOf (hn : n ≠ 0) : ∃ d, (digitsOf n).reverse.head? = some d ∧ d ≠ 48 := by
  fun_induction digitsOf n with
  | case1 => exact absurd rfl hn
  | case2 n hn ih =>
    by_cases hten : n / 10 = 0
    · refine ⟨UInt8.ofNat (48 + n % 10), ?_, fun hzero => ?_⟩
      · rw [hten, digitsOf, if_pos rfl]
        rfl
      · have hvalue := toNat_digit n
        rw [hzero] at hvalue
        change 48 = 48 + n % 10 at hvalue
        omega
    · obtain ⟨d, hhead, hd⟩ := ih hten
      refine ⟨d, ?_, hd⟩
      rw [List.reverse_cons, List.head?_append, hhead]
      rfl

lemma writeU32_canonical (value : UInt32) : Canonical (Search.writeU32 value) value.toNat := by
  rw [Search.writeU32]
  split_ifs with hzero
  · subst hzero
    exact ⟨digits_of_all (List.cons_ne_nil _ _) rfl, rfl, fun _ => rfl⟩
  · have hne : value.toNat ≠ 0 := fun h => hzero (UInt32.toNat_inj.mp h)
    obtain ⟨d, hhead, hd⟩ := head_digitsOf hne
    refine ⟨⟨?_, fun c hc => ?_⟩, digitsValue_digitsOf _, fun h48 => ?_⟩
    · intro hnil
      rw [hnil] at hhead
      cases hhead
    · exact isDigit_of_mem_digitsOf c (List.mem_reverse.mp hc)
    · rw [hhead, Option.some.injEq] at h48
      exact absurd h48 hd

end Numerals

namespace OutBuf

structure Unfailing (out : OutBuf) : Prop where
  answers : .failed ∉ out.answers
  length_le : out.buf.length ≤ writeBufSize

variable {out : OutBuf} {data digits : Bytes} {answers : List WriteAnswer}

lemma writeFull_unfailing (h : .failed ∉ answers) (data : Bytes) :
    (writeFull answers data).2.1 = true ∧ .failed ∉ (writeFull answers data).2.2 := by
  fun_induction writeFull answers data with
  | case1 answers => exact ⟨rfl, h⟩
  | case2 c data => exact ⟨rfl, List.not_mem_nil⟩
  | case3 answers c data ih => exact ih fun hmem => h (List.mem_cons_of_mem _ hmem)
  | case4 answers => exact absurd List.mem_cons_self h
  | case5 k answers c data taken ok left heq ih =>
    rw [heq] at ih
    exact ih fun hmem => h (List.mem_cons_of_mem _ hmem)

lemma Unfailing.flush (h : out.Unfailing) :
    out.flush.2 = true ∧ out.flush.1.Unfailing ∧ out.flush.1.buf = [] := by
  rw [OutBuf.flush]
  split_ifs with hnil
  · exact ⟨rfl, h, hnil⟩
  · obtain ⟨hok, hleft⟩ := writeFull_unfailing h.answers out.buf
    simp only [hok, if_true]
    exact ⟨trivial, ⟨hleft, Nat.zero_le _⟩, trivial⟩

lemma Unfailing.makeRoom (h : out.Unfailing) : out.makeRoom.2 = true ∧ out.makeRoom.1.Unfailing ∧
    out.makeRoom.1.buf.length + out.room ≤ writeBufSize := by
  have hle := h.length_le
  rw [OutBuf.makeRoom, room]
  by_cases hfull : writeBufSize - out.buf.length = 0
  · obtain ⟨hok, hflush, hnil⟩ := h.flush
    rw [if_pos hfull, if_pos hfull, hnil]
    exact ⟨hok, hflush, (Nat.zero_add _).le⟩
  · rw [if_neg hfull, if_neg hfull]
    exact ⟨rfl, h, (Nat.add_sub_of_le hle).le⟩

lemma Unfailing.writeData (h : out.Unfailing) (data : Bytes) :
    (out.writeData data).2 = true ∧ (out.writeData data).1.Unfailing := by
  induction hlen : data.length using Nat.strong_induction_on generalizing out data with
  | _ len ih =>
    rw [OutBuf.writeData]
    split_ifs with hnil
    · exact ⟨rfl, h⟩
    · obtain ⟨hok, hready, hroom⟩ := h.makeRoom
      have hshort : (data.drop out.room).length < len := by
        have hpos := List.length_pos_iff.mpr hnil
        have hroom := out.room_pos
        rw [List.length_drop]
        omega
      have hnext : Unfailing { out.makeRoom.1 with buf := out.makeRoom.1.buf ++ data.take out.room } := by
        refine ⟨hready.answers, ?_⟩
        simp only [List.length_append, List.length_take]
        omega
      simp only [hok, if_true]
      exact ih _ hshort hnext _ rfl

lemma Unfailing.writeDigits (h : out.Unfailing) (digits : Bytes) :
    (out.writeDigits digits).2 = true ∧ (out.writeDigits digits).1.Unfailing := by
  induction digits generalizing out with
  | nil => exact ⟨rfl, h⟩
  | cons digit digits ih =>
    obtain ⟨hok, hbyte⟩ := h.writeData [digit]
    rw [OutBuf.writeDigits, writeByte]
    simp only [hok, if_true]
    exact ih hbyte

lemma Unfailing.call (h : out.Unfailing) (c : Call) :
    (out.call c).2 = true ∧ (out.call c).1.Unfailing := by
  cases c with
  | data bytes => exact h.writeData bytes
  | byte ch => exact h.writeData [ch]
  | u32 value => exact h.writeDigits _
  | flush => exact ⟨h.flush.1, h.flush.2.1⟩

end OutBuf

structure Output.Faithful (s : Output) (passed : Bytes) : Prop where
  unfailing : s.out.Unfailing
  failed_eq : s.failed = false
  stale_eq : s.out.stale = 0
  contents : s.out.accepted ++ s.out.buf = passed

lemma Output.Faithful.call {s : Output} {passed : Bytes} (h : s.Faithful passed) (c : OutBuf.Call) :
    (s.call c).Faithful (passed ++ c.payload) := by
  obtain ⟨hok, hcall⟩ := h.unfailing.call c
  obtain ⟨hstale, hcontents⟩ := (call_written c h.stale_eq h.contents).holds hok
  refine ⟨hcall, ?_, hstale, hcontents⟩
  rw [Output.call, h.failed_eq, hok]
  rfl

lemma Output.faithful_calls {answers : List WriteAnswer} (h : .failed ∉ answers)
    (calls : List OutBuf.Call) :
    (calls.foldl Output.call ⟨OutBuf.init answers, [], false⟩).Faithful
      (calls.flatMap OutBuf.Call.payload) := by
  induction calls using List.reverseRecOn with
  | nil => exact ⟨⟨h, Nat.zero_le _⟩, rfl, rfl, rfl⟩
  | append_singleton calls c ih =>
    rw [List.foldl_append, List.flatMap_append, List.flatMap_singleton]
    exact ih.call c

theorem buffered_output_faithful (answers : List WriteAnswer) (h : .failed ∉ answers)
    (calls : List OutBuf.Call) :
    (calls.foldl Output.call ⟨OutBuf.init answers, [], false⟩).failed = false ∧
    (calls.foldl Output.call ⟨OutBuf.init answers, [], false⟩).out.accepted ++
        (calls.foldl Output.call ⟨OutBuf.init answers, [], false⟩).out.buf =
      calls.flatMap OutBuf.Call.payload ∧
    (calls.foldl Output.call ⟨OutBuf.init answers, [], false⟩).out.buf.length ≤ writeBufSize ∧
    ∀ value : UInt32, Canonical (OutBuf.Call.u32 value).payload value.toNat := by
  have hfaithful := Output.faithful_calls h calls
  exact ⟨hfaithful.failed_eq, hfaithful.contents, hfaithful.unfailing.length_le, writeU32_canonical⟩

theorem buffered_output_short_counts :
    let output := [OutBuf.Call.u32 120, .byte 58, .flush].foldl Output.call
      ⟨OutBuf.init [.upTo 1, .interrupted, .upTo 2], [], false⟩
    output.failed = false ∧ output.out.accepted ++ output.out.buf = [49, 50, 48, 58] ∧
      output.out.buf.length ≤ writeBufSize := by
  obtain ⟨hfailed, hcontents, hle, -⟩ := buffered_output_faithful [.upTo 1, .interrupted, .upTo 2]
    (by decide) [OutBuf.Call.u32 120, .byte 58, .flush]
  have hpayload : [OutBuf.Call.u32 120, .byte 58, .flush].flatMap OutBuf.Call.payload =
      [49, 50, 48, 58] := by simp [OutBuf.Call.payload, Search.writeU32, digitsOf]
  exact ⟨hfailed, hcontents.trans hpayload, hle⟩

end SystemsLab.Search
