import SystemsLab.CLib.Getopt
import SystemsLab.Executables.HeadTail

namespace SystemsLab.Executables.Echo

open CLib

def bufferSize : ℕ := 8192

def letterN : UInt8 := 110
def lettere : UInt8 := 101
def letterE : UInt8 := 69
def letterh : UInt8 := 104
def lettert : UInt8 := 116
def backslash : UInt8 := 92
def space : UInt8 := 32

structure Flags where
  outputTrailingNewline : Bool
  enableBackslashEscaping : Bool
deriving DecidableEq

/-- What `handle_options` does: it leaves the program with a text, or returns an index. -/
inductive Handled
  | exits (out : Bytes)
  | returns (index : ℕ) (flags : Flags)
deriving DecidableEq

def usage (argv : List Bytes) : Bytes :=
  ascii "Usage: " ++ argv.headD [] ++ ascii " [OPTION]... [STRING]...\n" ++
    ascii "Echo the STRING(s) to standard output.\n" ++
    ascii " -n   do not output the trailing newline\n" ++
    ascii " -e   enable interpretation of backslash escapes\n" ++
    ascii " -E   disable interpretation of backslash escapes (default)\n" ++
    ascii " -h   display this help and exit\n"

def handleOption (argv : List Bytes) (opt : UInt8) (optind : ℕ) (flags : Flags) : Handled ⊕ Flags :=
  if opt = letterN then .inr { flags with outputTrailingNewline := false }
  else if opt = lettere then .inr { flags with enableBackslashEscaping := true }
  else if opt = letterE then .inr { flags with enableBackslashEscaping := false }
  else if opt = letterh then .inl (.exits (usage argv))
  -- an unknown option is meant to be the first operand
  else if opt = questionMark then .inl (.returns (optind - 1) flags)
  else .inr flags

def optstring : Bytes := ascii "neEh"

def optionsFrom (argv : List Bytes) (d : Getopt) (flags : Flags) : Handled :=
  Getopt.options (handleOption argv) .returns optstring argv d flags

def handleOptions (argv : List Bytes) : Handled := optionsFrom argv ⟨1, []⟩ ⟨true, false⟩

def toEscapeChar (c : UInt8) : UInt8 :=
  if c = letterN then newline else if c = lettert then 9 else if c = backslash then backslash else c

structure Output where
  writes : List Bytes
  buffer : Bytes

def writeWhenNeeded (o : Output) : Output :=
  if o.buffer.length ≥ bufferSize - 1 then ⟨o.writes ++ [o.buffer], []⟩ else o

def put (o : Output) (c : UInt8) : Output :=
  ⟨(writeWhenNeeded o).writes, (writeWhenNeeded o).buffer ++ [c]⟩

def putArg (escaping : Bool) : Bytes → Output → Output
  | [], o => o
  | [c], o => put o c
  | c :: d :: rest, o =>
    if escaping = true ∧ c = backslash then putArg escaping rest (put o (toEscapeChar d))
    else putArg escaping (d :: rest) (put o c)

def putArgs (escaping : Bool) : List Bytes → Output → Output
  | [], o => o
  | [arg], o => putArg escaping arg o
  | arg :: next :: rest, o => putArgs escaping (next :: rest) (put (putArg escaping arg o) space)

/-- What a run hands to `write`, call by call, from the index and the flags on. -/
def printFrom (argv : List Bytes) (i : ℕ) (flags : Flags) : List Bytes :=
  let o := putArgs flags.enableBackslashEscaping (argv.drop i) ⟨[], []⟩
  o.writes ++ (if o.buffer.length > 0 then [o.buffer] else []) ++
    if flags.outputTrailingNewline then [[newline]] else []

def main (argv : List Bytes) : List Bytes :=
  match handleOptions argv with
  | .exits out => [out]
  | .returns i flags => printFrom argv i flags

section Printing

variable {escaping : Bool} {o : Output}

def printed (escaping : Bool) : Bytes → Bytes
  | [] => []
  | [c] => [c]
  | c :: d :: rest =>
    if escaping = true ∧ c = backslash then toEscapeChar d :: printed escaping rest
    else c :: printed escaping (d :: rest)

def Output.text (o : Output) : Bytes := o.writes.flatten ++ o.buffer

lemma text_writeWhenNeeded (o : Output) : (writeWhenNeeded o).text = o.text := by
  rw [writeWhenNeeded]
  split_ifs
  · simp [Output.text]
  · rfl

lemma text_put (o : Output) (c : UInt8) : (put o c).text = o.text ++ [c] := by
  rw [← text_writeWhenNeeded o, put, Output.text, Output.text, List.append_assoc]

lemma text_putArg (escaping : Bool) (arg : Bytes) (o : Output) :
    (putArg escaping arg o).text = o.text ++ printed escaping arg := by
  induction arg, o using putArg.induct escaping with
  | case1 o => rw [putArg, printed, List.append_nil]
  | case2 o c => rw [putArg, printed, text_put]
  | case3 c d rest o hescape ih =>
    rw [putArg, if_pos hescape, ih, text_put, printed, if_pos hescape, List.append_assoc,
      List.singleton_append]
  | case4 c d rest o hescape ih =>
    rw [putArg, if_neg hescape, ih, text_put, printed, if_neg hescape, List.append_assoc,
      List.singleton_append]

lemma text_putArgs (escaping : Bool) (args : List Bytes) (o : Output) :
    (putArgs escaping args o).text =
      o.text ++ List.intercalate [space] (args.map (printed escaping)) := by
  induction args, o using putArgs.induct escaping with
  | case1 o => simp [putArgs]
  | case2 arg o => simp [putArgs, text_putArg]
  | case3 arg next rest o ih =>
    rw [putArgs, ih, text_put, text_putArg, List.map_cons, List.map_cons, List.map_cons,
      List.intercalate_cons_cons]
    simp only [List.append_assoc]

lemma flatten_flushed (o : Output) :
    (o.writes ++ if o.buffer.length > 0 then [o.buffer] else []).flatten = o.text := by
  rw [List.flatten_append, Output.text]
  split_ifs with hlen
  · rw [List.flatten_singleton]
  · rw [List.eq_nil_of_length_eq_zero (Nat.eq_zero_of_not_pos hlen), List.flatten_nil]

def line (flags : Flags) (args : List Bytes) : Bytes :=
  List.intercalate [space] (args.map (printed flags.enableBackslashEscaping)) ++
    if flags.outputTrailingNewline then [newline] else []

lemma flatten_printFrom (argv : List Bytes) (i : ℕ) (flags : Flags) :
    (printFrom argv i flags).flatten = line flags (argv.drop i) := by
  rw [printFrom, List.flatten_append, flatten_flushed, text_putArgs, line]
  congr 1
  split_ifs <;> rfl

end Printing

section Options

variable {argv args : List Bytes} {arg cs rest : Bytes} {c : UInt8} {k optind : ℕ} {flags : Flags}

def isEchoLetter (c : UInt8) : Bool := c == letterN || c == lettere || c == letterE

def isOptionCluster (arg : Bytes) : Bool :=
  arg.head? == some dash && decide (arg.length ≥ 2) && (arg.drop 1).all isEchoLetter

def skipped (args : List Bytes) : ℕ :=
  let clusters := (args.takeWhile isOptionCluster).length
  if args[clusters]? = some [dash, dash] then clusters + 1 else clusters

def firstOperand (argv : List Bytes) : ℕ := 1 + skipped (argv.drop 1)

def stopElement (args : List Bytes) : Bytes := (args.dropWhile isOptionCluster).headD []

def unknownLetters (arg : Bytes) : Bytes :=
  if arg.head? = some dash then (arg.drop 1).dropWhile isEchoLetter else []

def AsksForHelp (args : List Bytes) : Prop := (unknownLetters (stopElement args)).head? = some letterh

def UnknownInside (args : List Bytes) : Prop := 2 ≤ (unknownLetters (stopElement args)).length

instance (args : List Bytes) : Decidable (AsksForHelp args) :=
  inferInstanceAs (Decidable ((unknownLetters (stopElement args)).head? = some letterh))

instance (args : List Bytes) : Decidable (UnknownInside args) :=
  inferInstanceAs (Decidable (2 ≤ (unknownLetters (stopElement args)).length))

lemma optionsFrom_letter (argv : List Bytes) (k : ℕ) (c : UInt8) (cs : Bytes) (flags : Flags) :
    optionsFrom argv ⟨k, c :: cs⟩ flags =
      (handleOption argv (Getopt.answer optstring c) (if cs = [] then k + 1 else k) flags).elim id
        (optionsFrom argv ⟨if cs = [] then k + 1 else k, cs⟩) := by
  rw [optionsFrom, Getopt.options_handle (Getopt.next_letter k c cs)]
  rfl

lemma handleOption_known (hc : isEchoLetter c = true) (argv : List Bytes) (optind : ℕ) (flags : Flags) :
    ∃ flags', handleOption argv (Getopt.answer optstring c) optind flags = .inr flags' := by
  simp only [isEchoLetter, Bool.or_eq_true, beq_iff_eq] at hc
  rcases hc with (rfl | rfl) | rfl
  · exact ⟨_, rfl⟩
  · exact ⟨_, rfl⟩
  · exact ⟨_, rfl⟩

lemma handleOption_unknown (hc : isEchoLetter c = false) (hhelp : c ≠ letterh) :
    handleOption argv (Getopt.answer optstring c) optind flags =
      .inl (.returns (optind - 1) flags) := by
  have hnot : ¬ c ∈ optstring := by
    have hletters : optstring = [letterN, lettere, letterE, letterh] := by decide
    simp only [isEchoLetter, Bool.or_eq_false_iff, beq_eq_false_iff_ne] at hc
    simp [hletters, hc.1.1, hc.1.2, hc.2, hhelp]
  rw [Getopt.answer, if_neg fun h => hnot h.1]
  rfl

lemma optionsFrom_known (argv : List Bytes) (k : ℕ) (flags : Flags) (hne : cs ≠ [])
    (hall : ∀ c ∈ cs, isEchoLetter c = true) :
    ∃ flags', optionsFrom argv ⟨k, cs⟩ flags = optionsFrom argv ⟨k + 1, []⟩ flags' := by
  induction cs generalizing flags with
  | nil => exact absurd rfl hne
  | cons c cs ih =>
    obtain ⟨hc, hcs⟩ := List.forall_mem_cons.mp hall
    obtain ⟨next, hnext⟩ := handleOption_known hc argv (if cs = [] then k + 1 else k) flags
    rw [optionsFrom_letter, hnext, Sum.elim_inr]
    by_cases hlast : cs = []
    · rw [if_pos hlast, hlast]
      exact ⟨next, rfl⟩
    · rw [if_neg hlast]
      exact ih next hlast hcs

lemma optionsFrom_unknown (argv : List Bytes) (k : ℕ) (flags : Flags)
    (hunknown : cs.dropWhile isEchoLetter = c :: rest) (hhelp : c ≠ letterh) :
    ∃ flags', optionsFrom argv ⟨k, cs⟩ flags =
      .returns ((if rest = [] then k + 1 else k) - 1) flags' := by
  induction cs generalizing flags with
  | nil => exact absurd hunknown.symm (List.cons_ne_nil c rest)
  | cons a cs ih =>
    rw [optionsFrom_letter]
    rw [List.dropWhile_cons] at hunknown
    cases ha : isEchoLetter a with
    | true =>
      rw [if_pos ha] at hunknown
      have hne : cs ≠ [] := by
        rintro rfl
        exact absurd hunknown.symm (List.cons_ne_nil c rest)
      obtain ⟨next, hnext⟩ := handleOption_known ha argv (if cs = [] then k + 1 else k) flags
      rw [hnext, Sum.elim_inr, if_neg hne]
      exact ih next hunknown
    | false =>
      rw [if_neg (Bool.not_eq_true _ ▸ ha)] at hunknown
      obtain ⟨rfl, rfl⟩ := List.cons.inj hunknown
      rw [handleOption_unknown ha hhelp]
      exact ⟨flags, rfl⟩

lemma isOptionCluster_iff : isOptionCluster arg = true ↔
    ∃ c cs, arg = dash :: c :: cs ∧ ∀ l ∈ c :: cs, isEchoLetter l = true := by
  cases arg with
  | nil => simp [isOptionCluster]
  | cons a cs =>
    cases cs with
    | nil => simp [isOptionCluster]
    | cons c cs => simp [isOptionCluster]

lemma skipped_cluster (h : isOptionCluster arg = true) : skipped (arg :: args) = skipped args + 1 := by
  rw [skipped, skipped, List.takeWhile_cons_of_pos h]
  simp only [List.length_cons, List.getElem?_cons_succ]
  split_ifs <;> rfl

lemma skipped_stop (h : isOptionCluster arg = false) :
    skipped (arg :: args) = if arg = [dash, dash] then 1 else 0 := by
  rw [skipped, List.takeWhile_cons_of_neg (Bool.not_eq_true _ ▸ h)]
  simp

lemma stopElement_cluster (h : isOptionCluster arg = true) :
    stopElement (arg :: args) = stopElement args := by
  rw [stopElement, List.dropWhile_cons_of_pos h, stopElement]

lemma stopElement_stop (h : isOptionCluster arg = false) : stopElement (arg :: args) = arg := by
  rw [stopElement, List.dropWhile_cons_of_neg (Bool.not_eq_true _ ▸ h), List.headD_cons]

lemma optionsFrom_enter (hget : argv[k]? = some (dash :: c :: rest)) (hne : c :: rest ≠ [dash]) :
    optionsFrom argv ⟨k, []⟩ flags = optionsFrom argv ⟨k, c :: rest⟩ flags :=
  Getopt.options_enter hget hne

lemma optionsFrom_stop (hget : argv[k]? = some arg) (hstop : isOptionCluster arg = false)
    (hhelp : (unknownLetters arg).head? ≠ some letterh) :
    ∃ flags', optionsFrom argv ⟨k, []⟩ flags = .returns
      (k + (if arg = [dash, dash] then 1 else 0) -
        if 2 ≤ (unknownLetters arg).length then 1 else 0) flags' := by
  by_cases hop : ∃ c rest, arg = dash :: c :: rest
  · obtain ⟨c, rest, rfl⟩ := hop
    by_cases hdash : c :: rest = [dash]
    · rw [hdash] at hget ⊢
      rw [optionsFrom, Getopt.options_finish (Getopt.next_dashes hget)]
      exact ⟨flags, rfl⟩
    · have hdashes : dash :: c :: rest ≠ [dash, dash] := fun h => hdash (List.cons.inj h).2
      have hletters : unknownLetters (dash :: c :: rest) = (c :: rest).dropWhile isEchoLetter :=
        if_pos rfl
      rw [hletters] at hhelp ⊢
      rw [optionsFrom_enter hget hdash, if_neg hdashes]
      cases hunknown : (c :: rest).dropWhile isEchoLetter with
      | nil =>
        have hall := List.dropWhile_eq_nil_iff.mp hunknown
        exact absurd (isOptionCluster_iff.mpr ⟨c, rest, rfl, hall⟩) (Bool.not_eq_true _ ▸ hstop)
      | cons l others =>
        rw [hunknown] at hhelp
        obtain ⟨flags', hreturns⟩ := optionsFrom_unknown argv k flags hunknown fun h =>
          hhelp (by rw [h]; rfl)
        refine ⟨flags', hreturns.trans ?_⟩
        cases others with
        | nil => rfl
        | cons other others => rfl
  · rw [not_exists] at hop
    have hnone : unknownLetters arg = [] := by
      cases arg with
      | nil => rfl
      | cons a cs =>
        cases cs with
        | nil => simp [unknownLetters]
        | cons c rest =>
          have ha : a ≠ dash := fun ha => hop c ⟨rest, by rw [ha]⟩
          simp [unknownLetters, ha]
    have hdashes : arg ≠ [dash, dash] := fun h => hop dash ⟨[], h⟩
    rw [hnone, if_neg hdashes, optionsFrom,
      Getopt.options_finish (Getopt.next_operand hget fun c rest h => hop c ⟨rest, h⟩)]
    exact ⟨flags, rfl⟩

lemma optionsFrom_args (flags : Flags) (hargs : argv.drop k = args) (hhelp : ¬ AsksForHelp args) :
    ∃ flags', optionsFrom argv ⟨k, []⟩ flags =
      .returns (k + skipped args - if UnknownInside args then 1 else 0) flags' := by
  induction args generalizing k flags with
  | nil =>
    have hend : argv[k]? = none := by
      rw [List.getElem?_eq_none_iff]
      exact List.drop_eq_nil_iff.mp hargs
    rw [optionsFrom, Getopt.options_finish (Getopt.next_end hend)]
    exact ⟨flags, rfl⟩
  | cons arg args ih =>
    have hget : argv[k]? = some arg := by
      rw [← Nat.add_zero k, ← List.getElem?_drop, hargs]
      rfl
    have hrest : argv.drop (k + 1) = args := by
      rw [← List.tail_drop, hargs]
      rfl
    cases hcluster : isOptionCluster arg with
    | true =>
      rw [AsksForHelp, stopElement_cluster hcluster] at hhelp
      simp only [UnknownInside, stopElement_cluster hcluster, skipped_cluster hcluster]
      obtain ⟨c, cs, rfl, hall⟩ := isOptionCluster_iff.mp hcluster
      have hdash : c :: cs ≠ [dash] := by
        intro h
        have hletter := hall dash (h ▸ List.mem_singleton_self dash)
        exact absurd hletter (by decide)
      obtain ⟨next, hnext⟩ := optionsFrom_known argv k flags (List.cons_ne_nil c cs) hall
      obtain ⟨flags', hreturns⟩ := ih next hrest hhelp
      refine ⟨flags', ?_⟩
      rw [optionsFrom_enter hget hdash, hnext, hreturns, Nat.add_assoc, Nat.add_comm 1]
      rfl
    | false =>
      rw [AsksForHelp, stopElement_stop hcluster] at hhelp
      simp only [UnknownInside, stopElement_stop hcluster, skipped_stop hcluster]
      exact optionsFrom_stop hget hcluster hhelp

theorem handle_options_index_iff (argv : List Bytes) (hhelp : ¬ AsksForHelp (argv.drop 1)) :
    ∃ index flags, handleOptions argv = .returns index flags ∧
      (index = firstOperand argv ↔ ¬ UnknownInside (argv.drop 1)) ∧
      (UnknownInside (argv.drop 1) → index + 1 = firstOperand argv) ∧
      (main argv).flatten = line flags (argv.drop index) := by
  obtain ⟨flags, hreturns⟩ := optionsFrom_args ⟨true, false⟩ rfl hhelp
  have hhandle : handleOptions argv = _ := hreturns
  refine ⟨_, flags, hhandle, ?_, fun hinside => ?_, ?_⟩
  · rw [firstOperand]
    split_ifs with hinside
    · rw [iff_false_right (not_not_intro hinside)]
      omega
    · rw [iff_true_right hinside]
      rfl
  · rw [if_pos hinside, firstOperand]
    omega
  · rw [main, hhandle]
    exact flatten_printFrom _ _ _

theorem handle_options_index_clusters :
    ∃ flags, handleOptions [ascii "pa2_echo", ascii "-nE", ascii "--", ascii "-e"] =
      .returns 3 flags := by
  obtain ⟨index, flags, hhandle, hindex, -, -⟩ := handle_options_index_iff
    [ascii "pa2_echo", ascii "-nE", ascii "--", ascii "-e"] (by decide)
  rw [hindex.mpr (by decide)] at hhandle
  exact ⟨flags, hhandle⟩

theorem unknown_option_prints_name :
    handleOptions [ascii "pa2_echo", ascii "-foo"] = .returns 0 ⟨true, false⟩ ∧
      firstOperand [ascii "pa2_echo", ascii "-foo"] = 1 ∧
      (main [ascii "pa2_echo", ascii "-foo"]).flatten = ascii "pa2_echo -foo\n" := by
  have hhandle : handleOptions [ascii "pa2_echo", ascii "-foo"] = .returns 0 ⟨true, false⟩ := by
    have hget : [ascii "pa2_echo", ascii "-foo"][1]? = some (dash :: 102 :: [111, 111]) := by decide
    rw [handleOptions, optionsFrom_enter hget (by decide), optionsFrom_letter]
    rfl
  refine ⟨hhandle, by decide, ?_⟩
  rw [main, hhandle]
  rfl

end Options

end SystemsLab.Executables.Echo
