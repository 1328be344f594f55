import SystemsLab.CommandLine.Lines
import SystemsLab.CommandLine.Separators
import SystemsLab.Effects.Ending

/-! Evaluation of a command line (`evaluate` and `interpret` of `helper.c`). How a pipeline runs is
a parameter, `run`: it takes the pipeline and the incoming status to a status. It may change the
state of the shell, which is of any type, and it may end the shell. -/

namespace SystemsLab.CommandLine

open CLib Effects

variable {ε σ : Type}

def pipelineIsEmpty (pipeline : Pipeline) : Bool :=
  pipeline.numCommands == 0 ||
    pipeline.numCommands == 1 &&
      match pipeline.commands with
      | [] => false
      | c :: _ => (c.args.head?.bind List.head?) == some 35

def interpret (run : Pipeline → ℤ → EStateM ε σ ℤ) (pipeline : Pipeline) (lastStatus : ℤ) :
    EStateM ε σ ℤ :=
  if pipeline.numCommands = 0 then pure 0 else run pipeline lastStatus

/-- The loop of `evaluate`. -/
def runPipelines (run : Pipeline → ℤ → EStateM ε σ ℤ) (pipelines : List Pipeline)
    (lastStatus : ℤ) : EStateM ε σ ℤ :=
  pipelines.foldlM (fun lastStatus pipeline =>
    if pipelineIsEmpty pipeline then pure lastStatus else interpret run pipeline lastStatus)
    lastStatus

/-- `getenv` are the environment variables of a state. A line that `lex` reads outside of is
treated like one that it rejects. -/
def evaluate (getenv : σ → Environment) (run : Pipeline → ℤ → EStateM ε σ ℤ) (cmd : Bytes)
    (lastStatus : ℤ) : EStateM ε σ ℤ := do
  match lex cmd with
  | .error _ => return lastStatus
  | .ok tokens =>
    match parse (getenv (← get)) lastStatus tokens with
    | none => return lastStatus
    | some pipelines => runPipelines run pipelines lastStatus

variable {env env' : Environment} {lastStatus lastStatus' : ℤ} {tokens ta tb : List Token}
  {p q : Parser} {getenv : σ → Environment} {run : Pipeline → ℤ → EStateM ε σ ℤ} {cmd a b : Bytes}
  {s : σ} {pa pb pipelines : List Pipeline}

lemma Parses.congr (h : Parses env lastStatus p tokens q)
    (hsame : ∀ t ∈ tokens, toArgument env t lastStatus = toArgument env' t lastStatus') :
    Parses env' lastStatus' p tokens q := by
  induction h with
  | done p => exact .done p
  | sep htype _ ih =>
    exact .sep htype (ih fun t ht => hsame t (List.mem_cons_of_mem _ ht))
  | pipe htype hargs hnext _ ih =>
    exact .pipe htype hargs hnext (ih fun t ht => hsame t (List.mem_cons_of_mem _ ht))
  | @redirect p q token file tokens htype hfile hrest ih =>
    apply Parses.redirect htype hfile
    rw [← hsame file (List.mem_cons_of_mem _ List.mem_cons_self)]
    exact ih fun t ht => hsame t (List.mem_cons_of_mem _ (List.mem_cons_of_mem _ ht))
  | background htype _ ih =>
    exact .background htype (ih fun t ht => hsame t (List.mem_cons_of_mem _ ht))
  | @name p q token tokens htype hargs hrest ih =>
    apply Parses.name htype hargs
    rw [← hsame token List.mem_cons_self]
    exact ih fun t ht => hsame t (List.mem_cons_of_mem _ ht)
  | @argument p q token tokens htype hargs hrest ih =>
    apply Parses.argument htype hargs
    rw [← hsame token List.mem_cons_self]
    exact ih fun t ht => hsame t (List.mem_cons_of_mem _ ht)

lemma parse_congr (h : parse env lastStatus tokens = some pipelines)
    (hsame : ∀ t ∈ tokens, toArgument env t lastStatus = toArgument env' t lastStatus') :
    parse env' lastStatus' tokens = some pipelines := by
  rw [parse, Option.map_eq_some_iff] at h ⊢
  obtain ⟨q, hq, rfl⟩ := h
  refine ⟨q, ?_, rfl⟩
  exact parseFrom_of_parses ((parses_of_parseFrom hq).congr hsame)

lemma evaluate_eq {st : ℤ} (hlex : lex cmd = .ok tokens)
    (hparse : parse (getenv s) st tokens = some pipelines) :
    evaluate getenv run cmd st s = runPipelines run pipelines st s := by
  rw [evaluate, hlex]
  change (match parse (getenv s) st tokens with
    | none => (pure st : EStateM ε σ ℤ)
    | some pipelines => runPipelines run pipelines st) s = _
  rw [hparse]

lemma runPipelines_append (l l' : List Pipeline) (st : ℤ) :
    runPipelines run (l ++ l') st = runPipelines run l st >>= runPipelines run l' := by
  rw [runPipelines, List.foldlM_append]
  rfl

lemma runPipelines_runnable (l : List Pipeline) (st : ℤ) :
    runPipelines run (runnable l) st = runPipelines run l st := by
  induction l generalizing st with
  | nil => rfl
  | cons pipeline l ih =>
    by_cases hpos : 0 < pipeline.numCommands
    · have hkeep : runnable (pipeline :: l) = pipeline :: runnable l := by
        simp [runnable, hpos]
      rw [hkeep, runPipelines, runPipelines, List.foldlM_cons, List.foldlM_cons]
      exact congrArg _ (funext fun st => ih st)
    · have hskip : runnable (pipeline :: l) = runnable l := by
        simp [runnable, hpos]
      have hempty : pipelineIsEmpty pipeline = true := by
        simp [pipelineIsEmpty, Nat.eq_zero_of_not_pos hpos]
      rw [hskip, ih, runPipelines, runPipelines, List.foldlM_cons, if_pos hempty, pure_bind]

theorem evaluate_semicolon (ha : lex a = .ok ta) (hb : lex b = .ok tb)
    (hpa : (parse (getenv s) lastStatus ta).isSome) (hpb : (parse (getenv s) lastStatus tb).isSome)
    (hfits : lex (a ++ semicolon :: b) ≠ .error .tooManyTokens) (hsep : Separable ta tb)
    (hvars : ∀ st s', evaluate getenv run a lastStatus s = .ok st s' →
      ∀ t ∈ tb, toArgument (getenv s) t lastStatus = toArgument (getenv s') t st) :
    evaluate getenv run (a ++ semicolon :: b) lastStatus s =
      (evaluate getenv run a lastStatus >>= evaluate getenv run b) s := by
  obtain ⟨pa, hpa⟩ := Option.isSome_iff_exists.mp hpa
  obtain ⟨pb, hpb⟩ := Option.isSome_iff_exists.mp hpb
  have hlex : lex (a ++ semicolon :: b) = .ok (ta ++ sepToken :: tb) := by
    rcases lex_semicolon ha hb with hok | herror
    · exact hok
    · exact absurd herror hfits
  obtain ⟨pab, hpab, hiff⟩ := parse_sep (rfl : sepToken.type = .sep) hpa hpb
  have hrunnable := hiff.mpr hsep
  have hfirst : evaluate getenv run a lastStatus s = runPipelines run pa lastStatus s :=
    evaluate_eq ha hpa
  have hsplit : runPipelines run pab lastStatus =
      runPipelines run pa lastStatus >>= runPipelines run pb := by
    rw [← runPipelines_runnable, hrunnable, runPipelines_append, runPipelines_runnable]
    exact congrArg _ (funext fun st => runPipelines_runnable pb st)
  rw [evaluate_eq hlex hpab, hsplit]
  change EStateM.bind _ _ s = EStateM.bind _ _ s
  rw [EStateM.bind, EStateM.bind, hfirst]
  cases hrun : runPipelines run pa lastStatus s with
  | error e s' => rfl
  | ok st s' =>
    have hpb' := parse_congr hpb (hvars st s' (hfirst.trans hrun))
    exact (evaluate_eq hb hpb').symm

lemma lex_f : lex [102] = .ok [⟨.command, [102]⟩] := by
  have h : lexFrom [] [102] = lexFrom [⟨.command, [102]⟩] [] := by
    apply lexFrom_token
    · decide
    · decide
    · rfl
  rw [lex, h, lexFrom_nil]
  rfl

lemma lex_f_status : lex [102, 32, 36, 63] = .ok [⟨.command, [102]⟩, ⟨.var, [63]⟩] := by
  have h : lexFrom [] [102, 32, 36, 63] = lexFrom [⟨.command, [102]⟩] [32, 36, 63] := by
    apply lexFrom_token
    · decide
    · decide
    · rfl
  have h' : lexFrom [⟨.command, [102]⟩] [36, 63] =
      lexFrom ([⟨.command, [102]⟩] ++ [⟨.var, [63]⟩]) [] := by
    apply lexFrom_token
    · decide
    · decide
    · rfl
  rw [lex, h, lexFrom_space (by decide), h', lexFrom_nil]
  rfl

lemma lex_redirect_f : lex [62, 102] = .ok [⟨.redirectOut, [62]⟩, ⟨.argument, [102]⟩] := by
  have h : lexFrom [] [62, 102] = lexFrom [⟨.redirectOut, [62]⟩] [102] := by
    apply lexFrom_token
    · decide
    · decide
    · rfl
  have h' : lexFrom [⟨.redirectOut, [62]⟩] [102] =
      lexFrom ([⟨.redirectOut, [62]⟩] ++ [⟨.argument, [102]⟩]) [] := by
    apply lexFrom_token
    · decide
    · decide
    · rfl
  rw [lex, h, h', lexFrom_nil]
  rfl

lemma lexFrom_semicolons (n : ℕ) (tokens : List Token) (h : tokens.length + n ≤ maxTokens - 1) :
    lexFrom tokens (List.replicate n semicolon) =
      .ok (tokens ++ List.replicate n sepToken) := by
  induction n generalizing tokens with
  | zero => rw [List.replicate_zero, List.replicate_zero, List.append_nil, lexFrom_nil]
  | succ n ih =>
    have hroom : ¬tokens.length ≥ maxTokens - 1 := by omega
    have hnext : (tokens ++ [sepToken]).length + n ≤ maxTokens - 1 := by
      rw [List.length_append, List.length_singleton]
      omega
    rw [List.replicate_succ, lexFrom_semicolon hroom, ih _ hnext, List.append_assoc,
      List.replicate_succ]
    rfl

/-- A run in which the status tells apart a command with the argument `0`, a command with its
output redirected, and any other command. -/
def probe (pipeline : Pipeline) (_ : ℤ) : EStateM Unit Unit ℤ :=
  pure (match pipeline.commands.head? with
    | none => 1
    | some c => if c.args.getLast? = some [48] then 2 else if c.stdout.isSome then 3 else 1)

theorem evaluate_semicolon_f :
    evaluate (fun _ _ => none) probe ([102] ++ semicolon :: [102]) 0 () =
      (evaluate (fun _ _ => none) probe [102] 0 >>= evaluate (fun _ _ => none) probe [102]) () := by
  have hfits : lex ([102] ++ semicolon :: [102]) ≠ .error .tooManyTokens := by
    rw [lex_semicolon_room lex_f lex_f (by decide)]
    exact nofun
  refine evaluate_semicolon lex_f lex_f rfl rfl hfits (by decide) fun _ _ _ t ht => ?_
  rw [List.mem_singleton.mp ht]
  rfl

lemma lex_semicolons (n : ℕ) (h : n + 1 ≤ maxTokens - 1) :
    lex (List.replicate (n + 1) semicolon) = .ok (List.replicate (n + 1) sepToken) := by
  have hlast : (List.replicate (n + 1) sepToken).getLast? = some sepToken := by
    rw [List.replicate_succ', List.getLast?_append, List.getLast?_singleton, Option.some_or]
  rw [lex, lexFrom_semicolons (n + 1) [] (by simpa using h)]
  change lexEnd (List.replicate (n + 1) sepToken) = _
  rw [lexEnd, hlast]
  rfl

lemma parse_separators (n : ℕ) :
    parse env lastStatus (List.replicate n sepToken) = some Parser.init.pipelines := by
  have h : Parses env lastStatus .init (List.replicate n sepToken) .init := by
    induction n with
    | zero => exact .done _
    | succ n ih => exact .sep rfl ih
  rw [parse, parseFrom_of_parses h]
  rfl

lemma evaluate_error {e : LexStop} {st : ℤ} (h : lex cmd = .error e) :
    evaluate getenv run cmd st s = .ok st s := by
  rw [evaluate, h]
  rfl

lemma evaluate_then {st st' : ℤ} {s' : σ} {r : EStateM.Result ε σ ℤ}
    (ha : evaluate getenv run a st s = .ok st' s') (hb : evaluate getenv run b st' s' = r) :
    (evaluate getenv run a st >>= evaluate getenv run b) s = r := by
  change EStateM.bind _ _ s = r
  rw [EStateM.bind, ha]
  exact hb

lemma lex_semicolons_full (n : ℕ) (h : n + 1 = maxTokens - 1) :
    lex (List.replicate n semicolon ++ semicolon :: [102]) = .error .tooManyTokens := by
  have hn := lexFrom_semicolons n [] (by simpa using Nat.le_of_succ_le h.le)
  have hroom : ¬([] ++ List.replicate n sepToken).length ≥ maxTokens - 1 := by
    rw [List.nil_append, List.length_replicate]
    omega
  have hfull : lexFrom ([] ++ List.replicate n sepToken ++ [sepToken]) [102] =
      .error .tooManyTokens := by
    apply lexFrom_full
    · decide
    · rw [List.length_append, List.nil_append, List.length_replicate, List.length_singleton, h]
  rw [lex, lexFrom_append hn hroom, hfull]
  rfl

/-- Three lines that run otherwise than their parts: one with too many tokens, `f ; f $?`, and
`> f ; f`. -/
theorem evaluate_semicolon_differs :
    (evaluate (fun _ _ => none) probe (List.replicate 998 semicolon ++ semicolon :: [102]) 0 () =
        .ok 0 () ∧
      (evaluate (fun _ _ => none) probe (List.replicate 998 semicolon) 0 >>=
        evaluate (fun _ _ => none) probe [102]) () = .ok 1 ()) ∧
    (evaluate (fun _ _ => none) probe ([102] ++ semicolon :: [102, 32, 36, 63]) 0 () = .ok 2 () ∧
      (evaluate (fun _ _ => none) probe [102] 0 >>=
        evaluate (fun _ _ => none) probe [102, 32, 36, 63]) () = .ok 1 ()) ∧
    (evaluate (fun _ _ => none) probe ([62, 102] ++ semicolon :: [102]) 0 () = .ok 3 () ∧
      (evaluate (fun _ _ => none) probe [62, 102] 0 >>=
        evaluate (fun _ _ => none) probe [102]) () = .ok 1 ()) := by
  refine ⟨⟨?_, ?_⟩, ⟨?_, ?_⟩, ⟨?_, ?_⟩⟩
  · apply evaluate_error (e := .tooManyTokens)
    exact lex_semicolons_full 998 rfl
  · apply evaluate_then
    · exact evaluate_eq (lex_semicolons 997 (by decide)) (parse_separators 998)
    · exact evaluate_eq lex_f rfl
  · exact evaluate_eq (lex_semicolon_room lex_f lex_f_status (by decide)) rfl
  · apply evaluate_then
    · exact evaluate_eq lex_f rfl
    · exact evaluate_eq lex_f_status rfl
  · exact evaluate_eq (lex_semicolon_room lex_redirect_f lex_f (by decide)) rfl
  · apply evaluate_then
    · exact evaluate_eq lex_redirect_f rfl
    · exact evaluate_eq lex_f rfl

end SystemsLab.CommandLine
