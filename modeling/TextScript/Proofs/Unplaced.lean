/-
TextScript/Proofs/Unplaced.lean

Places make no difference to what a source is read as.

Every token keeps its place, and so does every node of a tree.  `unplaced` forgets the places, of
tokens, of trees, and of all that the parser holds; of a failure that stopped the parser nothing
is kept but that there is one.  The parser never looks at a place, so forgetting before a step or
after it comes to the same (`step_unplaced`).  Literals are read alike if their codes are, and
codes are shorter sources, so a source is read alike wherever it begins, with any number of levels
that is no less than its length (`parseLevels_alike`).
-/
import TextScript.Proofs.Segments
import TextScript.Proofs.InContext

namespace TextScript

open Lexer Interpolation

/-! ### Forgetting places -/

/-- The failure without its place. -/
def Failure.unplaced (f : Failure) : Failure :=
  f.moveTo .unknown

/-- The token without its place. -/
def Token.unplaced (tok : Token) : Token :=
  { tok with place := .unknown, fault := tok.fault.map Failure.unplaced }

def MessageHead.unplaced (head : MessageHead) : MessageHead :=
  { head with tok := head.tok.unplaced }

mutual

/-- The tree without the places of its tokens. -/
def Expr.unplaced : Expr → Expr
  | .message head args => .message head.unplaced (Expr.unplacedAll args)
  | .send tok receiver head args =>
    .send tok.unplaced receiver.unplaced head.unplaced (Expr.unplacedAll args)
  | .int tok value => .int tok.unplaced value
  | .text tok value => .text tok.unplaced value
  | .concat tok parts => .concat tok.unplaced (Expr.unplacedAll parts)
  | .unary tok op operand => .unary tok.unplaced op operand.unplaced
  | .binary tok left op right => .binary tok.unplaced left.unplaced op right.unplaced
  | .index tok target position => .index tok.unplaced target.unplaced position.unplaced
  | .list tok items => .list tok.unplaced (Expr.unplacedAll items)
  | .host tok source run => .host tok.unplaced source run
  | .foreign label => .foreign label

/-- The trees without the places of their tokens. -/
def Expr.unplacedAll : List Expr → List Expr
  | [] => []
  | e :: es => e.unplaced :: Expr.unplacedAll es

end

variable {tok : Token} {e : Expr} {es : List Expr}

theorem Failure.unplaced_moveTo (f : Failure) (p : Position) :
    (f.moveTo p).unplaced = f.unplaced := by
  cases f <;> rfl

@[simp] theorem Token.unplaced_kind (tok : Token) : tok.unplaced.kind = tok.kind := rfl

@[simp] theorem Token.unplaced_lit (tok : Token) : tok.unplaced.lit = tok.lit := rfl

@[simp] theorem Token.unplaced_isNewline (tok : Token) : tok.unplaced.isNewline = tok.isNewline :=
  rfl

@[simp] theorem Expr.unplacedAll_eq (es : List Expr) :
    Expr.unplacedAll es = es.map Expr.unplaced := by
  induction es with
  | nil => rfl
  | cons e es ih => rw [Expr.unplacedAll, ih, List.map_cons]

theorem Expr.isBareName_unplaced (e : Expr) : e.unplaced.isBareName = e.isBareName := by
  cases e <;> rfl

/-! ### Outcomes -/

namespace Traced

variable {α β γ δ : Type}

/-- What a computation comes to, seen through `f`; nothing if it fails. -/
def outcome (f : α → β) (x : Traced α) : Option β :=
  x.result.toOption.map f

variable {f : α → β} {g : γ → δ} {x y : Traced α} {a : α}

theorem outcome_of_ok (h : x.result = .ok a) : x.outcome f = some (f a) := by
  rw [outcome, h]
  rfl

/-- An outcome is that of a result. -/
theorem ok_of_outcome {b : β} (h : x.outcome f = some b) : ∃ a, x.result = .ok a ∧ f a = b := by
  rw [outcome, Option.map_eq_some_iff] at h
  obtain ⟨a, ha, hb⟩ := h
  refine ⟨a, ?_, hb⟩
  cases hres : x.result with
  | error e => rw [hres] at ha; cases ha
  | ok a' => rw [hres] at ha; cases ha; rfl

/-- One computation after another comes to the same if both of them do. -/
theorem andThen_outcome {k l : α → Traced γ} (h : x.outcome f = y.outcome f)
    (hkl : ∀ a b, f a = f b → (k a).outcome g = (l b).outcome g) :
    (x.andThen k).outcome g = (y.andThen l).outcome g := by
  unfold outcome at h hkl ⊢
  rw [result_andThen, result_andThen]
  rcases hx : x.result with e | a <;> rcases hy : y.result with e' | b <;> rw [hx, hy] at h
  · rfl
  · cases h
  · cases h
  · exact hkl a b (Option.some.inj h)

end Traced

/-! ### What the parser holds -/

def Frame.unplaced : Frame → Frame
  | .unary tok op => .unary tok.unplaced op
  | .binary tok left op => .binary tok.unplaced left.unplaced op
  | .group => .group
  | .index tok target => .index tok.unplaced target.unplaced
  | .list tok items => .list tok.unplaced (items.map Expr.unplaced)
  | .args receiver tok items =>
    .args (receiver.map Expr.unplaced) tok.unplaced (items.map Expr.unplaced)

/-- All failures become the same one. -/
def Stage.unplaced : Stage → Stage
  | .start => .start
  | .name receiver tok => .name (receiver.map Expr.unplaced) tok.unplaced
  | .operand e => .operand e.unplaced
  | .failed _ => .failed default

def ParseState.unplaced (s : ParseState) : ParseState where
  stack := s.stack.map Frame.unplaced
  stage := s.stage.unplaced
  done := s.done.map Expr.unplaced
  events := []

/-- The state without its events, where all failures are the same one. -/
def ParseState.blurred (s : ParseState) : ParseState where
  stack := s.stack
  stage := match s.stage with
    | .failed _ => .failed default
    | stage => stage
  done := s.done
  events := []

@[simp] theorem Frame.unplaced_isBracket (f : Frame) : f.unplaced.isBracket = f.isBracket := by
  cases f <;> rfl

@[simp] theorem Frame.unplaced_closer (f : Frame) : f.unplaced.closer = f.closer := by
  cases f <;> rfl

@[simp] theorem Frame.unplaced_mayBeEmpty (f : Frame) : f.unplaced.mayBeEmpty = f.mayBeEmpty := by
  cases f <;> rfl

@[simp] theorem Frame.unplaced_message (receiver : Option Expr) (tok : Token) (parens : Bool)
    (args : List Expr) :
    (Frame.message receiver tok parens args).unplaced
      = Frame.message (receiver.map Expr.unplaced) tok.unplaced parens
        (args.map Expr.unplaced) := by
  cases receiver <;> simp [Frame.message, Expr.unplaced, MessageHead.unplaced]

namespace ParseState

variable {literal plain : Token → Traced Expr} {s : ParseState}

theorem unplaced_inBrackets (s : ParseState) : s.unplaced.inBrackets = s.inBrackets := by
  simp [inBrackets, unplaced, Function.comp_def]

/-- Closing operators does not look at places. -/
theorem reduce_unplaced (k : Strength) (stack : List Frame) (e : Expr) :
    reduce k (stack.map Frame.unplaced) e.unplaced
      = ((reduce k stack e).1.map Frame.unplaced, (reduce k stack e).2.unplaced) := by
  induction stack generalizing e with
  | nil => rfl
  | cons f rest ih =>
    cases f with
    | unary tok op =>
      rw [List.map_cons, Frame.unplaced, reduce, reduce]
      split
      · exact ih (.unary tok op e)
      · rfl
    | binary tok left op =>
      rw [List.map_cons, Frame.unplaced, reduce, reduce]
      split
      · exact ih (.binary tok left op e)
      · rfl
    | group => rfl
    | index => rfl
    | list => rfl
    | args => rfl

/-- A refusal has a place of its own, which is blurred. -/
theorem reject_unplaced (tok tok' : Token) (more more' : String) :
    (s.reject tok more).unplaced = (s.unplaced.reject tok' more').blurred := by
  unfold reject
  split <;> split <;> rfl

/-- Closing a bracket does not look at places. -/
theorem close_unplaced (s : ParseState) (last : Option Expr) :
    (s.close last).unplaced = (s.unplaced.close (last.map Expr.unplaced)).blurred := by
  obtain ⟨stack, stage, done, events⟩ := s
  cases stack with
  | nil => cases stage <;> rfl
  | cons f rest =>
    cases f <;> cases last <;> cases stage <;>
      simp [close, unplaced, blurred, Frame.unplaced, operand, Stage.unplaced, Expr.unplaced]

/-- An integer is read by its digits. -/
theorem beginInteger_unplaced (s : ParseState) (tok : Token) :
    (s.beginInteger tok).unplaced = (s.unplaced.beginInteger tok.unplaced).blurred := by
  unfold beginInteger
  rw [Token.unplaced_lit]
  split
  · rfl
  · obtain ⟨stack, stage, done, events⟩ := s
    cases stack with
    | nil => rfl
    | cons f rest =>
      cases f with
      | unary sign op => cases op <;> rfl
      | _ => rfl

/-- A literal is read alike if its reader reads it alike. -/
theorem beginText_unplaced
    (h : (plain tok.unplaced).result.toOption = (literal tok).outcome Expr.unplaced) :
    (s.beginText literal tok).unplaced = (s.unplaced.beginText plain tok.unplaced).blurred := by
  unfold Traced.outcome at h
  unfold beginText
  rcases hliteral : (literal tok).result with f | e
  · rcases hplain : (plain tok.unplaced).result with g | e
    · -- both fail, each in its own way
      simp only [hliteral, hplain]
      cases f <;> cases g <;> rfl
    · rw [hliteral, hplain] at h
      cases h
  · rcases hplain : (plain tok.unplaced).result with g | e'
    · rw [hliteral, hplain] at h
      cases h
    · rw [hliteral, hplain] at h
      cases h
      simp only [hliteral, hplain]
      rfl

theorem blurred_unplaced (s : ParseState) : s.unplaced.blurred = s.unplaced := by
  obtain ⟨stack, stage, done, events⟩ := s
  cases stage <;> rfl

/-- What begins an operand does not look at places. -/
theorem begin_unplaced
    (h : (plain tok.unplaced).result.toOption = (literal tok).outcome Expr.unplaced) :
    (s.begin literal tok).unplaced = (s.unplaced.begin plain tok.unplaced).blurred := by
  unfold begin
  rw [Token.unplaced_kind]
  split
  · rfl
  · exact beginInteger_unplaced s tok
  · exact beginText_unplaced h
  · rfl
  · rfl
  · rfl
  · rfl
  · -- what begins no operand ends the program, closes an empty bracket or is refused
    have hstack : s.unplaced.stack = s.stack.map Frame.unplaced := rfl
    rw [hstack]
    cases s.stack with
    | nil =>
      rw [List.map_nil]
      dsimp only
      split
      · exact (blurred_unplaced s).symm
      · exact reject_unplaced _ _ _ _
    | cons top rest =>
      rw [List.map_cons]
      dsimp only
      rw [Frame.unplaced_mayBeEmpty, Frame.unplaced_closer]
      split
      · exact close_unplaced s none
      · exact reject_unplaced _ _ _ _

theorem add?_unplaced (f : Frame) (e : Expr) :
    f.unplaced.add? e.unplaced = (f.add? e).map Frame.unplaced := by
  cases f <;> simp [Frame.add?, Frame.unplaced]

/-- Nor does what finishes one. -/
theorem finish_unplaced (s : ParseState) (e : Expr) (tok : Token) :
    (s.finish e tok).unplaced = (s.unplaced.finish e.unplaced tok.unplaced).blurred := by
  obtain ⟨own, whole, hred⟩ : ∃ own whole, reduce Strength.lowest s.stack e = (own, whole) :=
    ⟨_, _, rfl⟩
  have hred' : reduce Strength.lowest s.unplaced.stack e.unplaced
      = (own.map Frame.unplaced, whole.unplaced) := by
    have h := reduce_unplaced Strength.lowest s.stack e
    rw [hred] at h
    exact h
  cases own with
  | nil =>
    simp only [finish, hred, hred', List.map_nil, Token.unplaced_kind]
    split
    · simp [unplaced, blurred, Stage.unplaced]
    · have hrej := reject_unplaced tok tok.unplaced "" ""
        (s := { s with stack := [], done := s.done ++ [whole], stage := .start })
      simpa [unplaced, Stage.unplaced] using hrej
  | cons top rest =>
    -- a comma adds to the bracket on both sides or on neither
    have hmore : (if tok.kind = .comma then (top.add? whole).map Frame.unplaced else none)
        = (if tok.kind = .comma then top.add? whole else none).map Frame.unplaced := by
      split <;> rfl
    rw [finish_top hred, finish_top hred', Token.unplaced_kind, add?_unplaced,
      Frame.unplaced_closer, hmore]
    cases (if tok.kind = .comma then top.add? whole else none) with
    | some more => rfl
    | none =>
      simp only [Option.map_none]
      split
      · exact close_unplaced { s with stack := top :: rest } (some whole)
      · exact reject_unplaced (s := { s with stack := top :: rest }) _ _ _ _

/-- Nor does what goes on behind one. -/
theorem extend_unplaced (s : ParseState) (e : Expr) (tok : Token) :
    (s.extend e tok).unplaced = (s.unplaced.extend e.unplaced tok.unplaced).blurred := by
  have hreduce : ∀ k, reduce k s.unplaced.stack e.unplaced
      = ((reduce k s.stack e).1.map Frame.unplaced, (reduce k s.stack e).2.unplaced) :=
    fun k => reduce_unplaced k s.stack e
  unfold extend
  rw [Token.unplaced_kind]
  split
  · simp only [hreduce, Expr.isBareName_unplaced]
    split
    · rfl
    · rfl
  · split
    · simp only [hreduce]
      rfl
    · simp only [hreduce]
      rfl
    · exact finish_unplaced s e tok

/-- Forgetting the places before a step or after it comes to the same. -/
theorem step_unplaced
    (h : (plain tok.unplaced).result.toOption = (literal tok).outcome Expr.unplaced) :
    (s.step literal tok).unplaced = (s.unplaced.step plain tok.unplaced).blurred := by
  have hin := unplaced_inBrackets s
  have hstage : s.unplaced.stage = s.stage.unplaced := rfl
  unfold step
  rw [Token.unplaced_isNewline, hin, hstage, Token.unplaced_kind]
  cases s.stage with
  | failed f => exact (blurred_unplaced s).symm
  | start =>
    simp only [Stage.unplaced]
    split
    · exact (blurred_unplaced s).symm
    · exact begin_unplaced h
  | operand e =>
    simp only [Stage.unplaced]
    split
    · exact (blurred_unplaced s).symm
    · exact extend_unplaced s e tok
  | name receiver name =>
    simp only [Stage.unplaced]
    split
    · exact (blurred_unplaced s).symm
    · split
      · rfl
      · rw [extend_unplaced, Frame.unplaced_message]
        rfl

variable {l₁ l₂ : Token → Traced Expr} {s₁ s₂ : ParseState} {t₁ t₂ : Token}
variable {toks₁ toks₂ : List Token}

/-- Two parsers in the same state but for places stay so, if literals come to the same. -/
theorem step_alike (hs : s₁.unplaced = s₂.unplaced) (ht : t₁.unplaced = t₂.unplaced)
    (h : (l₁ t₁).outcome Expr.unplaced = (l₂ t₂).outcome Expr.unplaced) :
    (s₁.step l₁ t₁).unplaced = (s₂.step l₂ t₂).unplaced := by
  -- one literal without places stands for both
  obtain ⟨plain, hplain⟩ : ∃ plain : Token → Traced Expr,
      (plain t₁.unplaced).result.toOption = (l₁ t₁).outcome Expr.unplaced := by
    cases (l₁ t₁).outcome Expr.unplaced with
    | none => exact ⟨fun _ => .fail default, rfl⟩
    | some e => exact ⟨fun _ => .ok e, rfl⟩
  have h₁ := step_unplaced (s := s₁) hplain
  rw [ht] at hplain
  have h₂ := step_unplaced (s := s₂) (hplain.trans h)
  rw [h₁, h₂, hs, ht]

/-- Nor does a run, if literals are read alike. -/
theorem foldl_alike (hs : s₁.unplaced = s₂.unplaced)
    (ht : toks₁.map Token.unplaced = toks₂.map Token.unplaced)
    (h : ∀ t₁ ∈ toks₁, ∀ t₂, t₁.unplaced = t₂.unplaced →
      (l₁ t₁).outcome Expr.unplaced = (l₂ t₂).outcome Expr.unplaced) :
    (toks₁.foldl (step l₁) s₁).unplaced = (toks₂.foldl (step l₂) s₂).unplaced := by
  induction toks₁ generalizing toks₂ s₁ s₂ with
  | nil =>
    rw [List.map_nil, eq_comm, List.map_eq_nil_iff] at ht
    subst ht
    exact hs
  | cons t₁ toks₁ ih =>
    cases toks₂ with
    | nil => cases ht
    | cons t₂ toks₂ =>
      obtain ⟨htok, hrest⟩ := List.cons.inj ht
      rw [List.foldl_cons, List.foldl_cons]
      refine ih (step_alike hs htok ?_) hrest ?_
      · exact h t₁ List.mem_cons_self t₂ htok
      · intro t hmem
        exact h t (List.mem_cons_of_mem _ hmem)

end ParseState

/-! ### Literals -/

variable {r₁ r₂ : Option CodeReader} {t₁ t₂ : Token} {limit : Int} {p₁ p₂ : Position}
variable {cs : List Char}

/-- Two readers of code, each for the literals of its own token, that make the same of code with
fewer than `n` characters, wherever it stands. -/
def CodesAlike (n : Nat) (r₁ r₂ : Option CodeReader) (t₁ t₂ : Token) : Prop :=
  ∀ code : List Char, code.length < n → ∀ q₁ q₂,
    (readCode r₁ t₁ (String.ofList code) q₁).outcome Expr.unplaced
      = (readCode r₂ t₂ (String.ofList code) q₂).outcome Expr.unplaced

/-- A segment decodes to the same text at every place. -/
theorem decodeAt_alike (seg : List Char) (p₁ p₂ : Position) :
    (Traced.lift (Escape.decodeAt p₁ seg)).outcome id
      = (Traced.lift (Escape.decodeAt p₂ seg)).outcome id := by
  rcases h₁ : Escape.decodeAt p₁ seg with e | v
  · rcases h₂ : Escape.decodeAt p₂ seg with e' | v
    · rfl
    · rw [decodeAt_moved h₂ p₁] at h₁
      cases h₁
  · rw [decodeAt_moved h₁ p₂]

theorem codesAlike_none {n : Nat} (hn : n ≤ 0) : CodesAlike n r₁ r₂ t₁ t₂ := by
  intro code hcode
  omega

/-- Codes are read alike by readers that agree on all codes short enough. -/
theorem CodesAlike.of_readers {n : Nat} {f₁ f₂ : CodeReader} (ht : t₁.unplaced = t₂.unplaced)
    (h : ∀ code : List Char, code.length < n → ∀ q₁ q₂,
      (f₁ (String.ofList code) q₁).outcome Expr.unplaced
        = (f₂ (String.ofList code) q₂).outcome Expr.unplaced) :
    CodesAlike n (some f₁) (some f₂) t₁ t₂ := by
  intro code hcode q₁ q₂
  unfold readCode
  split
  · -- blank code is not handed to either of them
    show some (Expr.text t₁ .empty).unplaced = some (Expr.text t₂ .empty).unplaced
    rw [Expr.unplaced, Expr.unplaced, ht]
  · refine Traced.andThen_outcome (f := id) rfl ?_
    intro _ _ _
    exact h code hcode q₁ q₂

/-- The parts of a literal are read alike if its codes are. -/
theorem readParts_alike {n : Nat} (ht : t₁.unplaced = t₂.unplaced) (hr : CodesAlike n r₁ r₂ t₁ t₂)
    (hn : cs.length ≤ n) :
    (readParts r₁ limit t₁ p₁ cs).outcome (List.map Expr.unplaced)
      = (readParts r₂ limit t₂ p₂ cs).outcome (List.map Expr.unplaced) := by
  have htext : ∀ v, (Expr.text t₁ v).unplaced = (Expr.text t₂ v).unplaced := by
    intro v
    rw [Expr.unplaced, Expr.unplaced, ht]
  induction cs using body_induction limit generalizing p₁ p₂ with
  | last seg hsize =>
    rw [readParts_segment hsize, readParts_segment hsize]
    apply Traced.andThen_outcome (decodeAt_alike seg p₁ p₂)
    rintro v _ rfl
    exact congrArg (fun e => some [e]) (htext v)
  | stuck seg rest k why hsize hscan =>
    rw [readParts_stuck hsize hscan, readParts_stuck hsize hscan]
    apply Traced.andThen_outcome (decodeAt_alike seg p₁ p₂)
    intro _ _ _
    rfl
  | block seg code rest hsize hscan ih =>
    -- code is shorter than the body, so both readers answer alike for it
    simp only [List.length_append, List.length_cons] at hn
    rw [readParts_closed hsize hscan, readParts_closed hsize hscan]
    apply Traced.andThen_outcome (decodeAt_alike seg p₁ p₂)
    rintro v _ rfl
    apply Traced.andThen_outcome (hr code (by omega) _ _)
    intro e₁ e₂ he
    apply Traced.andThen_outcome (ih (by omega))
    intro parts₁ parts₂ hparts
    refine congrArg some ?_
    rw [List.map_cons, List.map_cons, List.map_cons, List.map_cons, htext, he, hparts]
    rfl

/-- Literals are read alike if their codes are. -/
theorem read_alike (ht : t₁.unplaced = t₂.unplaced)
    (hr : CodesAlike t₁.lit.toList.length r₁ r₂ t₁ t₂) :
    (Interpolation.read r₁ limit t₁).outcome Expr.unplaced
      = (Interpolation.read r₂ limit t₂).outcome Expr.unplaced := by
  have hlit : t₁.lit = t₂.lit := by rw [← t₁.unplaced_lit, ht, t₂.unplaced_lit]
  unfold Interpolation.read
  rw [← hlit]
  refine Traced.andThen_outcome (readParts_alike ht (hlit ▸ hr) (Nat.le_refl _)) ?_
  intro parts₁ parts₂ hparts
  -- one part is the literal, and any other number of them is joined
  split
  · next e₁ =>
    obtain ⟨e₂, rfl, he⟩ := List.map_eq_singleton_iff.mp hparts.symm
    exact congrArg some he.symm
  · next hno =>
    split
    · next e₂ =>
      obtain ⟨e₁, rfl, -⟩ := List.map_eq_singleton_iff.mp hparts
      exact absurd rfl (hno e₁)
    · have hconcat : (Expr.concat t₁ parts₁).unplaced = (Expr.concat t₂ parts₂).unplaced := by
        rw [Expr.unplaced, Expr.unplaced, Expr.unplacedAll_eq, Expr.unplacedAll_eq, ht, hparts]
      exact congrArg some hconcat

/-! ### Sources -/

variable {o : ParseOptions} {src : List Char}

/-- A token is made of its characters, and its place. -/
theorem token_alike (limit : Int) (lx : Lexeme) (span : List Char) (p₁ p₂ : Position) :
    (token limit lx span p₁).unplaced = (token limit lx span p₂).unplaced := by
  have hfault : ∀ lit, (faultOf limit lx lit p₁).map Failure.unplaced
      = (faultOf limit lx lit p₂).map Failure.unplaced := by
    intro lit
    unfold faultOf
    split <;> simp only [Failure.makeAt, Option.map_some, Option.map_none, Failure.unplaced_moveTo]
  unfold token Token.unplaced
  simp only [hfault]

/-- Where a source begins makes no difference to its tokens but for their places. -/
theorem tokens_alike (limit : Int) (p₁ p₂ : Position) (src : List Char) :
    (tokens limit p₁ src).map Token.unplaced = (tokens limit p₂ src).map Token.unplaced := by
  induction src using source_induction limit generalizing p₁ p₂ with
  | done src hs =>
    rw [tokens_end hs, tokens_end hs]
    rfl
  | next src c cs hs ih =>
    rw [tokens_next hs, tokens_next hs, List.map_cons, List.map_cons]
    exact congrArg₂ List.cons (token_alike _ _ _ _ _) (ih _ _)

/-- No token is longer than the source. -/
theorem lit_length_le {tok : Token} {p : Position} (h : tok ∈ tokens limit p src) :
    tok.lit.toList.length ≤ src.length := by
  rcases mem_tokens h with ⟨q, rfl⟩ | ⟨pre, c, cs, q, rfl, rfl⟩
  · exact Nat.zero_le _
  · have hspan : ((c :: cs).take (lexeme limit c cs).size).length ≤ (pre ++ c :: cs).length := by
      simp only [List.length_take, List.length_append]
      omega
    refine Nat.le_trans ?_ hspan
    show (spelling _ _).toList.length ≤ _
    unfold spelling
    split
    · simp only [String.toList_ofList, List.length_dropLast, List.length_drop]
      omega
    · exact Nat.le_of_eq (congrArg List.length String.toList_ofList)

/-- A reader of code that does not look at where the code stands. -/
def CodeReader.Placeless (read : CodeReader) : Prop :=
  ∀ code q₁ q₂, (read code q₁).outcome Expr.unplaced = (read code q₂).outcome Expr.unplaced

/-- If the options name a reader, it does not look at where code stands. -/
def ParseOptions.Placeless (o : ParseOptions) : Prop :=
  ∀ read, o.embedded = some read → read.Placeless

/-- What a source comes to but for places: its program, or nothing if it is refused. -/
def Parsed.outcome (parsed : Parsed) : Option Program :=
  parsed.toTraced.outcome (List.map Expr.unplaced)

theorem single_alike {x y : Parsed} (h : x.outcome = y.outcome) (p₁ p₂ : Position) :
    (x.single p₁).outcome Expr.unplaced = (y.single p₂).outcome Expr.unplaced := by
  apply Traced.andThen_outcome h
  intro prog₁ prog₂ hprog
  cases prog₁ with
  | nil =>
    obtain rfl := List.map_eq_nil_iff.mp hprog.symm
    rfl
  | cons e₁ more₁ =>
    obtain ⟨e₂, more₂, rfl, he, hmore⟩ := List.map_eq_cons_iff.mp hprog.symm
    cases more₁ with
    | nil =>
      obtain rfl := List.map_eq_nil_iff.mp hmore
      exact congrArg some he.symm
    | cons f₁ more₁ =>
      obtain ⟨f₂, more₂, rfl, -, -⟩ := List.map_eq_cons_iff.mp hmore
      rfl

/-- What a run comes to, but for places. -/
theorem parsed_outcome (s : ParseState) :
    s.parsed.outcome = match s.unplaced.stage with
      | .failed _ => none
      | _ => some s.unplaced.done := by
  obtain ⟨stack, stage, done, events⟩ := s
  cases stage <;> rfl

/-- A run comes to a program if it does not fail, namely to the expressions it completed. -/
theorem outcome_eq_some_iff {s : ParseState} {prog : Program} :
    s.parsed.outcome = some prog ↔ ¬s.HasFailed ∧ s.done.map Expr.unplaced = prog := by
  rw [parsed_outcome]
  by_cases hfail : s.HasFailed
  · obtain ⟨f, hf⟩ := hfail
    have hstage : s.unplaced.stage = .failed default := congrArg Stage.unplaced hf
    rw [hstage]
    constructor
    · intro h
      cases h
    · exact fun h => absurd ⟨f, hf⟩ h.1
  · have hdone : (match s.unplaced.stage with
        | .failed _ => none
        | _ => some s.unplaced.done) = some (s.done.map Expr.unplaced) := by
      obtain ⟨stack, stage, done, events⟩ := s
      cases stage with
      | failed f => exact absurd ⟨f, rfl⟩ hfail
      | start => rfl
      | name => rfl
      | operand => rfl
    rw [hdone, Option.some.injEq]
    exact ⟨fun h => ⟨hfail, h⟩, And.right⟩

/-- Sources come to the same if all literals do that are no longer than they are. -/
theorem parseLevels_alike_of {m₁ m₂ : Nat} (p₁ p₂ : Position)
    (h : ∀ t₁ t₂, t₁.lit.toList.length ≤ src.length → t₁.unplaced = t₂.unplaced →
      (Source.literals m₁ o t₁).outcome Expr.unplaced
        = (Source.literals m₂ o t₂).outcome Expr.unplaced) :
    (Source.parseLevels m₁ o p₁ src).outcome = (Source.parseLevels m₂ o p₂ src).outcome := by
  have hrun : (ParseState.run (Source.literals m₁ o) (tokens o.limit p₁ src)).unplaced
      = (ParseState.run (Source.literals m₂ o) (tokens o.limit p₂ src)).unplaced := by
    apply ParseState.foldl_alike rfl (tokens_alike o.limit p₁ p₂ src)
    intro t₁ hmem t₂ ht
    exact h t₁ t₂ (lit_length_le hmem) ht
  rw [parseLevels_run, parseLevels_run, parsed_outcome, parsed_outcome, hrun]

/-- A literal is read alike at all levels that are enough for it.  Its code is shorter than the
literal, so one level less is enough for that. -/
theorem literals_alike {m₁ m₂ : Nat} (ho : o.Placeless)
    (ht : t₁.unplaced = t₂.unplaced) (h₁ : t₁.lit.toList.length ≤ m₁)
    (h₂ : t₁.lit.toList.length ≤ m₂) :
    (Source.literals m₁ o t₁).outcome Expr.unplaced
      = (Source.literals m₂ o t₂).outcome Expr.unplaced := by
  induction m₁ generalizing m₂ o t₁ t₂ with
  | zero => exact read_alike ht (codesAlike_none h₁)
  | succ m₁ ih =>
    cases m₂ with
    | zero => exact read_alike ht (codesAlike_none h₂)
    | succ m₂ =>
      apply read_alike ht
      cases he : o.embedded with
      | some read =>
        apply CodesAlike.of_readers ht
        intro code _ q₁ q₂
        exact ho read he _ q₁ q₂
      | none =>
        apply CodesAlike.of_readers ht
        intro code hcode q₁ q₂
        apply single_alike
        rw [String.toList_ofList]
        -- the code is a source for the level below
        apply parseLevels_alike_of
        intro u₁ u₂ hlen hu
        exact ih ho hu (by omega) (by omega)

/-- Tokens that differ in their places only are parsed alike. -/
theorem run_alike {levels : Nat} {toks₁ toks₂ : List Token} (ho : o.Placeless)
    (ht : toks₁.map Token.unplaced = toks₂.map Token.unplaced)
    (hlen : ∀ tok ∈ toks₁, tok.lit.toList.length ≤ levels) :
    (ParseState.run (Source.literals levels o) toks₁).unplaced
      = (ParseState.run (Source.literals levels o) toks₂).unplaced := by
  apply ParseState.foldl_alike rfl ht
  intro t₁ hmem t₂ htok
  exact literals_alike ho htok (hlen t₁ hmem) (hlen t₁ hmem)

/-- A source is read alike wherever it begins, at all levels that are enough for it. -/
theorem parseLevels_alike {m₁ m₂ : Nat} (ho : o.Placeless)
    (p₁ p₂ : Position) (h₁ : src.length ≤ m₁) (h₂ : src.length ≤ m₂) :
    (Source.parseLevels m₁ o p₁ src).outcome = (Source.parseLevels m₂ o p₂ src).outcome := by
  apply parseLevels_alike_of
  intro t₁ t₂ hlen ht
  exact literals_alike ho ht (by omega) (by omega)

end TextScript
