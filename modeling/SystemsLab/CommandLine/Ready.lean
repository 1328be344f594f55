import SystemsLab.CommandLine.Parser

namespace SystemsLab.CommandLine

open CLib

variable {env : Environment} {lastStatus : ℤ} {p q r : Parser} {token : Token}
  {tokens tokens' : List Token}

namespace Parser

structure Ready (p : Parser) : Prop where
  empty : p.numCommands = 0 → p.commands = [] ∧ p.command.args = [] ∧ p.command.type = .null
  named : 0 < p.numCommands → p.command.args ≠ []
  done : ∀ pipeline ∈ p.done, 0 < pipeline.numCommands

structure Waiting (p : Parser) : Prop where
  named : 0 < p.numCommands
  args : p.command.args = []
  done : ∀ pipeline ∈ p.done, 0 < pipeline.numCommands

lemma init_ready : init.Ready := ⟨fun _ => ⟨rfl, rfl, rfl⟩, nofun, nofun⟩

lemma separate_of_empty (h : p.numCommands = 0) : p.separate = p := by
  rw [separate, if_pos (Or.inl h)]

lemma Ready.separate_of_pos (h : p.Ready) (hpos : 0 < p.numCommands) :
    p.separate = { init with done := p.done ++ [p.pipeline] } := by
  have hargs := h.named hpos
  rw [separate, if_neg]
  rintro (h0 | h1)
  · omega
  · exact hargs h1.2

lemma Ready.separate (h : p.Ready) : p.separate.Ready := by
  rcases Nat.eq_zero_or_pos p.numCommands with h0 | hpos
  · rwa [separate_of_empty h0]
  · rw [h.separate_of_pos hpos]
    refine ⟨fun _ => ⟨rfl, rfl, rfl⟩, nofun, fun pipeline hmem => ?_⟩
    rcases List.mem_append.mp hmem with hmem | hmem
    · exact h.done pipeline hmem
    · rw [List.mem_singleton.mp hmem]
      exact hpos

end Parser

def Stands (p : Parser) (tokens : List Token) : Prop :=
  p.Ready ∨ p.Waiting ∧ tokens.head?.map Token.type = some .command

lemma init_stands (tokens : List Token) : Stands .init tokens := Or.inl Parser.init_ready

lemma Stands.ready (h : Stands p (token :: tokens)) (htype : token.type ≠ .command) : p.Ready := by
  rcases h with hr | ⟨-, hnext⟩
  · exact hr
  · exact absurd (Option.some.inj hnext) htype

lemma Stands.pos_of_args (h : Stands p tokens) (hargs : p.command.args ≠ []) :
    p.Ready ∧ 0 < p.numCommands := by
  rcases h with hr | ⟨hw, -⟩
  · refine ⟨hr, Nat.pos_of_ne_zero fun h0 => ?_⟩
    exact hargs (hr.empty h0).2.1
  · exact absurd hw.args hargs

lemma Stands.sep (h : Stands p (token :: tokens)) (htype : token.type = .sep) :
    Stands p.separate tokens := by
  apply Or.inl
  apply Parser.Ready.separate
  apply h.ready
  rw [htype]
  exact nofun

lemma Stands.pipe (h : Stands p (token :: tokens)) (hargs : p.command.args ≠ [])
    (hnext : tokens.head?.map Token.type = some .command) : Stands p.pipe tokens := by
  obtain ⟨hr, hpos⟩ := h.pos_of_args hargs
  exact Or.inr ⟨⟨hpos, rfl, hr.done⟩, hnext⟩

lemma Parser.redirect_numCommands (type : TokenType) (file : Bytes) :
    (p.redirect type file).numCommands = p.numCommands := by
  cases type <;> rfl

lemma Parser.redirect_done (type : TokenType) (file : Bytes) :
    (p.redirect type file).done = p.done := by
  cases type <;> rfl

lemma Parser.redirect_commands (type : TokenType) (file : Bytes) :
    (p.redirect type file).commands = p.commands := by
  cases type <;> rfl

lemma Parser.redirect_isInBackground (type : TokenType) (file : Bytes) :
    (p.redirect type file).isInBackground = p.isInBackground := by
  cases type <;> rfl

lemma Parser.redirect_args (type : TokenType) (file : Bytes) :
    (p.redirect type file).command.args = p.command.args := by
  cases type <;> rfl

lemma Parser.redirect_type (type : TokenType) (file : Bytes) :
    (p.redirect type file).command.type = p.command.type := by
  cases type <;> rfl

lemma type_ne_of_isRedirection (htype : isRedirection token) :
    token.type ≠ .command ∧ token.type ≠ .sep ∧ token.type ≠ .pipe ∧ token.type ≠ .background := by
  rcases isRedirection_iff.mp htype with ht | ht | ht
  all_goals
    rw [ht]
    exact ⟨nofun, nofun, nofun, nofun⟩

lemma type_ne_of_isString (htype : isString token) :
    token.type ≠ .command ∧ token.type ≠ .sep ∧ token.type ≠ .pipe ∧ token.type ≠ .background := by
  rcases isString_iff.mp htype with ht | ht
  all_goals
    rw [ht]
    exact ⟨nofun, nofun, nofun, nofun⟩

lemma Stands.redirect {file : Token} (h : Stands p (token :: file :: tokens))
    (htype : isRedirection token) (type : TokenType) (name : Bytes) :
    Stands (p.redirect type name) tokens := by
  have hr := h.ready (type_ne_of_isRedirection htype).1
  refine Or.inl ⟨?_, ?_, ?_⟩
  · rw [Parser.redirect_numCommands, Parser.redirect_commands, Parser.redirect_args,
      Parser.redirect_type]
    exact hr.empty
  · rw [Parser.redirect_numCommands, Parser.redirect_args]
    exact hr.named
  · rw [Parser.redirect_done]
    exact hr.done

lemma Stands.background (h : Stands p (token :: tokens)) (htype : token.type = .background) :
    Stands p.background tokens := by
  have hr : p.Ready := by
    apply h.ready
    rw [htype]
    exact nofun
  exact Or.inl ⟨hr.empty, hr.named, hr.done⟩

lemma Stands.name (h : Stands p (token :: tokens)) (token' : Token) (arg : Bytes) :
    Stands (p.name token' arg) tokens := by
  refine Or.inl ⟨nofun, fun _ => nofun, ?_⟩
  rcases h with hr | ⟨hw, -⟩
  · exact hr.done
  · exact hw.done

lemma Stands.argument (h : Stands p (token :: tokens)) (hargs : p.command.args ≠ [])
    (arg : Bytes) : Stands (p.argument arg) tokens := by
  obtain ⟨hr, hpos⟩ := h.pos_of_args hargs
  refine Or.inl ⟨fun h0 => absurd h0 hpos.ne', fun _ hnil => ?_, hr.done⟩
  cases (List.append_eq_nil_iff.mp hnil).2

lemma Parses.ready (h : Parses env lastStatus p tokens q) (hp : Stands p tokens) : q.Ready := by
  induction h with
  | done p =>
    rcases hp with hr | ⟨-, hnext⟩
    · exact hr
    · cases hnext
  | sep htype _ ih => exact ih (hp.sep htype)
  | pipe htype hargs hnext _ ih => exact ih (hp.pipe hargs hnext)
  | redirect htype hfile _ ih => exact ih (hp.redirect htype _ _)
  | background htype _ ih => exact ih (hp.background htype)
  | name htype hargs _ ih => exact ih (hp.name _ _)
  | argument htype hargs _ ih => exact ih (hp.argument hargs _)

end SystemsLab.CommandLine
