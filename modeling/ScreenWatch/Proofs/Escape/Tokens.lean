import ScreenWatch.Escape.Grammar

/-!
# The tokens of a stream

A stream of code points is a row of tokens, at the end of which one more may have begun.  The grammar lists the
characters that are special somewhere, and the machine tells just these from the others (`isParameter_iff` and the
lemmas beside it).  A stream can be cut in one way only (`streamOf_inj`), since every token tells by itself where it
ends, and the machine asks for the actions of the tokens and of the beginning, one after another (`run_tokens`): what
it has read since the last token is a beginning, and one more code point makes a token or a longer beginning of it
(`Beginning.step_cases`).
-/

namespace ScreenWatch.Escape

/-! ### Characters -/

/-- BS, HT, LF and CR. -/
def executedCodes : List Int := [0x08, 0x09, 0x0A, 0x0D]

/-- `D M E 7 8 c`. -/
def escapeFinals : List Int := [0x44, 0x4D, 0x45, 0x37, 0x38, 0x63]

/-- The digits and the semicolon. -/
def parameterCodes : List Int := [0x30, 0x31, 0x32, 0x33, 0x34, 0x35, 0x36, 0x37, 0x38, 0x39, 0x3B]

/-- From the space to the slash, and the question mark. -/
def intermediateCodes : List Int :=
  [0x20, 0x21, 0x22, 0x23, 0x24, 0x25, 0x26, 0x27, 0x28, 0x29, 0x2A, 0x2B, 0x2C, 0x2D, 0x2E, 0x2F, 0x3F]

/-- What may stand between `ESC [` and the final code point. -/
def bodyCodes : List Int := parameterCodes ++ intermediateCodes

/-- BEL and the backslash. -/
def terminators : List Int := [0x07, 0x5C]

variable {c : Int}

theorem isExecuted_iff : isExecuted c = true ↔ c ∈ executedCodes := by
  simp [isExecuted, executedCodes, or_assoc]

theorem isEscapeFinal_iff : isEscapeFinal c = true ↔ c ∈ escapeFinals := by
  simp [isEscapeFinal, escapeFinals, or_assoc]

theorem isParameter_iff : isParameter c = true ↔ c ∈ parameterCodes := by
  simp only [isParameter, parameterCodes, Bool.or_eq_true, Bool.and_eq_true, decide_eq_true_eq, beq_iff_eq,
    List.mem_cons, List.not_mem_nil, or_false]
  omega

theorem isIntermediate_iff : isIntermediate c = true ↔ c ∈ intermediateCodes := by
  simp only [isIntermediate, intermediateCodes, Bool.or_eq_true, Bool.and_eq_true, decide_eq_true_eq, beq_iff_eq,
    List.mem_cons, List.not_mem_nil, or_false]
  omega

theorem isTerminator_iff : isTerminator c = true ↔ c ∈ terminators := by
  simp [isTerminator, terminators]

theorem mem_bodyCodes : c ∈ bodyCodes ↔ isParameter c = true ∨ isIntermediate c = true := by
  rw [bodyCodes, List.mem_append, isParameter_iff, isIntermediate_iff]

/-! ### Tokens -/

inductive Token
  /-- A C0 control other than ESC. -/
  | control (c : Int) (h : 0 ≤ c ∧ c < 0x20 ∧ c ≠ 0x1B)
  /-- ESC and one code point that opens nothing. -/
  | escape (c : Int) (h : c ≠ 0x5B ∧ c ≠ 0x5D)
  /-- A control sequence: `ESC [`, its body and the final code point. -/
  | sequence (body : List Int) (hbody : ∀ c ∈ body, c ∈ bodyCodes) (final : Int) (hfinal : final ∉ bodyCodes)
  /-- An operating system command: `ESC ]`, its payload and BEL or a backslash. -/
  | command (payload : List Int) (hpayload : ∀ c ∈ payload, c ∉ terminators) (terminator : Int)
      (hterminator : terminator ∈ terminators)
  /-- Anything else, also what is no code point. -/
  | text (c : Int) (h : c < 0 ∨ 0x20 ≤ c)

/-- What has been read of a token that has not come to its end. -/
inductive Beginning
  | nothing
  | escape
  | sequence (body : List Int) (hbody : ∀ c ∈ body, c ∈ bodyCodes)
  | command (payload : List Int) (hpayload : ∀ c ∈ payload, c ∉ terminators)

/-- What a code point between `ESC [` and the final one asks for. -/
def bodyCodeAction (c : Int) : Action := if c ∈ parameterCodes then .param c else .collect c

namespace Token

def codes : Token → List Int
  | control c _ | text c _ => [c]
  | escape c _ => [0x1B, c]
  | sequence body _ final _ => 0x1B :: 0x5B :: (body ++ [final])
  | command payload _ terminator _ => 0x1B :: 0x5D :: (payload ++ [terminator])

def actions : Token → List Action
  | control c _ => if c ∈ executedCodes then [.execute c] else []
  | escape c _ => .clear :: if c ∈ escapeFinals then [.escDispatch c] else []
  | sequence body _ final _ => .clear :: (body.map bodyCodeAction ++ [.csiDispatch final])
  | command _ _ _ _ => [.clear]
  | text c _ => [.print c]

end Token

namespace Beginning

def codes : Beginning → List Int
  | nothing => []
  | escape => [0x1B]
  | sequence body _ => 0x1B :: 0x5B :: body
  | command payload _ => 0x1B :: 0x5D :: payload

def actions : Beginning → List Action
  | nothing => []
  | escape | command _ _ => [.clear]
  | sequence body _ => .clear :: body.map bodyCodeAction

def state : Beginning → State
  | nothing => .ground
  | escape => .escape
  | sequence _ _ => .csi
  | command _ _ => .oscString

end Beginning

/-- The stream of some tokens and the beginning of one more. -/
def streamOf (tokens : List Token) (rest : Beginning) : List Int := tokens.flatMap Token.codes ++ rest.codes

/-- What the tokens and the beginning ask for, in order. -/
def actionsOf (tokens : List Token) (rest : Beginning) : List Action :=
  tokens.flatMap Token.actions ++ rest.actions

/-! ### A stream is cut in one way -/

/-- What stands before the first element without a property is determined by the whole list. -/
private theorem append_cons_inj {p : Int → Prop} [DecidablePred p] {a a' r r' : List Int} {x x' : Int}
    (ha : ∀ c ∈ a, p c) (ha' : ∀ c ∈ a', p c) (hx : ¬ p x) (hx' : ¬ p x') (h : a ++ x :: r = a' ++ x' :: r') :
    a = a' ∧ x = x' ∧ r = r' := by
  have htake {b s : List Int} {y : Int} (hb : ∀ c ∈ b, p c) (hy : ¬ p y) :
      (b ++ y :: s).takeWhile (fun c => decide (p c)) = b := by
    rw [List.takeWhile_append_of_pos fun c hc => decide_eq_true (hb c hc), List.takeWhile_cons_of_neg (by simp [hy]),
      List.append_nil]
  obtain rfl : a = a' := by rw [← htake ha hx, h, htake ha' hx']
  obtain ⟨rfl, rfl⟩ := List.cons.inj (List.append_cancel_left h)
  exact ⟨rfl, rfl, rfl⟩

private theorem append_cons_ne {p : Int → Prop} {a a' r : List Int} {x : Int} (ha' : ∀ c ∈ a', p c) (hx : ¬ p x) :
    a ++ x :: r ≠ a' := by
  rintro rfl
  exact hx (ha' x (by simp))

/-- A token is known from any stream that it begins. -/
theorem Token.codes_append_inj {t t' : Token} {r r' : List Int} (h : t.codes ++ r = t'.codes ++ r') :
    t = t' ∧ r = r' := by
  -- Tokens of different kinds differ in their first or second code point.
  cases t <;> cases t' <;>
    simp only [codes, List.cons_append, List.nil_append, List.append_assoc, List.cons.injEq] at h <;>
    try omega
  case control.control | text.text =>
    obtain ⟨rfl, rfl⟩ := h
    exact ⟨rfl, rfl⟩
  case escape.escape =>
    obtain ⟨-, rfl, rfl⟩ := h
    exact ⟨rfl, rfl⟩
  case sequence.sequence hbody _ hfinal _ hbody' _ hfinal' =>
    obtain ⟨rfl, rfl, rfl⟩ := append_cons_inj hbody hbody' hfinal hfinal' h.2.2
    exact ⟨rfl, rfl⟩
  case command.command hpayload _ ht _ hpayload' _ ht' =>
    obtain ⟨rfl, rfl, rfl⟩ := append_cons_inj hpayload hpayload' (not_not_intro ht) (not_not_intro ht') h.2.2
    exact ⟨rfl, rfl⟩

/-- A stream that begins with a token is not the beginning of one. -/
theorem Token.codes_append_ne (t : Token) (r : List Int) (b : Beginning) : t.codes ++ r ≠ b.codes := by
  intro h
  cases t <;> cases b <;>
    simp only [codes, Beginning.codes, List.cons_append, List.nil_append, List.append_assoc, List.cons.injEq,
      reduceCtorEq, and_false] at h <;>
    try omega
  case sequence.sequence hfinal _ hbody => exact append_cons_ne hbody hfinal h.2.2
  case command.command ht _ hpayload =>
    exact append_cons_ne hpayload (not_not_intro ht) h.2.2

theorem Beginning.codes_inj {b b' : Beginning} (h : b.codes = b'.codes) : b = b' := by
  cases b <;> cases b' <;> simp_all [codes]

/-- There is one way to cut a stream. -/
theorem streamOf_inj {tokens tokens' : List Token} {rest rest' : Beginning}
    (h : streamOf tokens rest = streamOf tokens' rest') : tokens = tokens' ∧ rest = rest' := by
  unfold streamOf at h
  induction tokens generalizing tokens' with
  | nil =>
    cases tokens' with
    | nil => exact ⟨rfl, Beginning.codes_inj h⟩
    | cons t' tokens' =>
      rw [List.flatMap_cons, List.append_assoc] at h
      exact (t'.codes_append_ne _ rest h.symm).elim
  | cons t tokens ih =>
    rw [List.flatMap_cons, List.append_assoc] at h
    cases tokens' with
    | nil => exact (t.codes_append_ne _ rest' h).elim
    | cons t' tokens' =>
      rw [List.flatMap_cons, List.append_assoc] at h
      obtain ⟨rfl, hrest⟩ := Token.codes_append_inj h
      obtain ⟨rfl, rfl⟩ := ih hrest
      exact ⟨rfl, rfl⟩

/-! ### The machine follows the tokens -/

/-- With one more code point a beginning becomes a token or a longer beginning, and the machine asks for what this
adds. -/
theorem Beginning.step_cases (b : Beginning) (c : Int) :
    (∃ t : Token, t.codes = b.codes ++ [c] ∧ t.actions = b.actions ++ (step b.state c).1 ∧
      (step b.state c).2 = .ground) ∨
    ∃ b' : Beginning, b'.codes = b.codes ++ [c] ∧ b'.actions = b.actions ++ (step b.state c).1 ∧
      (step b.state c).2 = b'.state := by
  -- In each state the code points are split as the grammar splits them.
  cases b with
  | nothing =>
    by_cases hesc : c = 0x1B
    · subst hesc
      exact .inr ⟨.escape, rfl, rfl, rfl⟩
    · by_cases hctl : 0 ≤ c ∧ c < 0x20
      · refine .inl ⟨.control c ⟨hctl.1, hctl.2, hesc⟩, rfl, ?_⟩
        simp only [state, step, if_neg hesc, if_pos hctl, Token.actions, actions, isExecuted_iff]
        split <;> exact ⟨rfl, rfl⟩
      · have hx : isExecuted c = false := by
          simp only [isExecuted, Bool.or_eq_false_iff, beq_eq_false_iff_ne]
          omega
        refine .inl ⟨.text c (by omega), rfl, ?_⟩
        simp [state, step, hesc, hctl, hx, Token.actions, actions]
  | escape =>
    by_cases hcsi : c = 0x5B
    · subst hcsi
      exact .inr ⟨.sequence [] (by simp), rfl, rfl, rfl⟩
    · by_cases hosc : c = 0x5D
      · subst hosc
        exact .inr ⟨.command [] (by simp), rfl, rfl, rfl⟩
      · refine .inl ⟨.escape c ⟨hcsi, hosc⟩, rfl, ?_⟩
        simp only [state, step, if_neg hcsi, if_neg hosc, Token.actions, actions, isEscapeFinal_iff]
        split <;> exact ⟨rfl, rfl⟩
  | sequence body hbody =>
    by_cases hc : c ∈ bodyCodes
    · have hlonger := List.forall_mem_append.2 ⟨hbody, List.forall_mem_singleton.2 hc⟩
      refine .inr ⟨.sequence (body ++ [c]) hlonger, rfl, ?_⟩
      by_cases hp : isParameter c = true
      · simp [state, step, hp, isParameter_iff.1 hp, actions, bodyCodeAction]
      · have hi := (mem_bodyCodes.1 hc).resolve_left hp
        simp [state, step, hp, hi, mt isParameter_iff.2 hp, actions, bodyCodeAction]
    · refine .inl ⟨.sequence body hbody c hc, rfl, ?_⟩
      obtain ⟨hp, hi⟩ := not_or.1 (mt mem_bodyCodes.2 hc)
      simp [state, step, hp, hi, Token.actions, actions]
  | command payload hpayload =>
    by_cases hc : c ∈ terminators
    · refine .inl ⟨.command payload hpayload c hc, rfl, ?_⟩
      simp [state, step, isTerminator_iff.2 hc, Token.actions, actions]
    · have hlonger := List.forall_mem_append.2 ⟨hpayload, List.forall_mem_singleton.2 hc⟩
      refine .inr ⟨.command (payload ++ [c]) hlonger, rfl, ?_⟩
      simp [state, step, mt isTerminator_iff.1 hc, actions]

/-- A beginning and what comes after it are a stream of tokens, and the machine that has read the beginning asks for
what is left of their actions. -/
theorem Beginning.exists_streamOf (b : Beginning) (codes : List Int) :
    ∃ tokens rest, streamOf tokens rest = b.codes ++ codes ∧
      actionsOf tokens rest = b.actions ++ (run b.state codes).1 ∧ (run b.state codes).2 = rest.state := by
  -- By induction on what comes after the beginning; a token that ends makes room for the empty beginning.
  induction codes generalizing b with
  | nil => exact ⟨[], b, by simp [streamOf], by simp [actionsOf], rfl⟩
  | cons c codes ih =>
    rw [run_cons]
    rcases b.step_cases c with ⟨t, hcodes, hactions, hstate⟩ | ⟨b', hcodes, hactions, hstate⟩
    · obtain ⟨tokens, rest, h, ha, hs⟩ := ih .nothing
      refine ⟨t :: tokens, rest, ?_, ?_, by rw [hstate]; exact hs⟩
      · rw [streamOf, List.flatMap_cons, List.append_assoc, ← streamOf, h, hcodes, Beginning.codes, List.nil_append,
          List.append_assoc, List.singleton_append]
      · rw [actionsOf, List.flatMap_cons, List.append_assoc, ← actionsOf, ha, hactions, hstate, Beginning.actions,
          List.nil_append, List.append_assoc]
        rfl
    · obtain ⟨tokens, rest, h, ha, hs⟩ := ih b'
      refine ⟨tokens, rest, ?_, ?_, by rw [hstate]; exact hs⟩
      · rw [h, hcodes, List.append_assoc, List.singleton_append]
      · rw [ha, hactions, hstate, List.append_assoc]

/-- The machine asks for the actions of the tokens and of the beginning, one after another. -/
theorem run_streamOf (tokens : List Token) (rest : Beginning) :
    run .ground (streamOf tokens rest) = (actionsOf tokens rest, rest.state) := by
  obtain ⟨tokens', rest', h, hactions, hstate⟩ := Beginning.exists_streamOf .nothing (streamOf tokens rest)
  obtain ⟨rfl, rfl⟩ := streamOf_inj h
  exact Prod.ext hactions.symm hstate

/-- Every stream is cut into tokens, and the beginning of one more, in one way, and what the machine asks for are their
actions. -/
theorem run_tokens (codes : List Int) :
    ∃ tokens rest, (∀ tokens' rest', streamOf tokens' rest' = codes ↔ tokens' = tokens ∧ rest' = rest) ∧
      run .ground codes = (actionsOf tokens rest, rest.state) := by
  obtain ⟨tokens, rest, h, -⟩ := Beginning.exists_streamOf .nothing codes
  obtain rfl : streamOf tokens rest = codes := h
  refine ⟨tokens, rest, ?_, run_streamOf tokens rest⟩
  intro tokens' rest'
  constructor
  · exact streamOf_inj
  · rintro ⟨rfl, rfl⟩
    rfl

/-- Two controls, two escape sequences, a control sequence, a command with an escape character in it, and a letter. -/
theorem run_tokens_of_each_kind :
    run .ground [0x0A, 0x00, 0x1B, 0x44, 0x1B, 0x41, 0x1B, 0x5B, 0x31, 0x3B, 0x3F, 0x6D, 0x1B, 0x5D, 0x1B, 0x07, 0x61] =
      ([.execute 0x0A, .clear, .escDispatch 0x44, .clear, .clear, .param 0x31, .param 0x3B, .collect 0x3F,
        .csiDispatch 0x6D, .clear, .print 0x61], .ground) := by
  obtain ⟨tokens, rest, hcut, hrun⟩ := run_tokens
    [0x0A, 0x00, 0x1B, 0x44, 0x1B, 0x41, 0x1B, 0x5B, 0x31, 0x3B, 0x3F, 0x6D, 0x1B, 0x5D, 0x1B, 0x07, 0x61]
  obtain ⟨rfl, rfl⟩ := (hcut [.control 0x0A (by decide), .control 0x00 (by decide), .escape 0x44 (by decide),
    .escape 0x41 (by decide), .sequence [0x31, 0x3B, 0x3F] (by decide) 0x6D (by decide),
    .command [0x1B] (by decide) 0x07 (by decide), .text 0x61 (by decide)] .nothing).1 rfl
  exact hrun.trans rfl

/-- An escape character within a control sequence is its final one, and starts nothing. -/
example : run .ground [0x1B, 0x5B, 0x1B, 0x41] = ([.clear, .csiDispatch 0x1B, .print 0x41], .ground) := rfl

end ScreenWatch.Escape
