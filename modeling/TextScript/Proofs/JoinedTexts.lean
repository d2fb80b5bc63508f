/-
TextScript/Proofs/JoinedTexts.lean

Three ways of joining values.

A literal with interpolations, a call of `internal:concatenateText` and a template of insertions
all evaluate some expressions in order, and then make one text of the values.  The first two ask
the conversions for the texts of the values; the third is a method of texts, which renders a
template with the conversions of the engine.  The template is cut into as many insertions as there
are values (`cut_valueTemplate`), each takes the next value and writes its text in a field without
a width (`outputs_inserts`), so the renderer writes what concatenation joins
(`format_valueTemplate`).

An expression joins the values of others (`Joins`) if it evaluates them and then comes to their
concatenation, or fails with what concatenation fails with.  Only the places of the failures
differ, since each of the three places them at a token of its own.
-/
import TextScript.Proofs.Alike
import TextScript.Proofs.Arities
import TextScript.Proofs.Rendering

namespace TextScript

/-! ### A template of insertions -/

/-- The template `%s`, a number of times. -/
def valueTemplate (n : Nat) : Text :=
  Text.concat (List.replicate n (Text.ofString "%s"))

/-- An insertion without a width. -/
def plainInsert : Item :=
  .insert [Directive.percent, Directive.letter] [] false

theorem valueTemplate_succ (n : Nat) :
    (valueTemplate (n + 1)).points
      = Directive.percent :: Directive.letter :: (valueTemplate n).points := by
  have hpoints : (Text.ofString "%s").points = [Directive.percent, Directive.letter] := by decide
  rw [valueTemplate, List.replicate_succ, Text.points_concat, List.flatMap_cons, hpoints]
  rfl

theorem cut_valueTemplate (n : Nat) :
    Cut (valueTemplate n).points (List.replicate n plainInsert) := by
  induction n with
  | zero => exact .nil
  | succ n ih =>
    have hbegins : Begins (Directive.percent :: Directive.letter :: (valueTemplate n).points)
        (.insert [Directive.percent, Directive.letter] [] false) (valueTemplate n).points :=
      .insert false fun d hd => absurd hd List.not_mem_nil
    rw [valueTemplate_succ, List.replicate_succ]
    exact .insert hbegins ih

/-- One insertion adds the text of the argument at the cursor. -/
theorem output_plainInsert (caps : Capabilities) (pre vs : List Value) (v : Value) :
    plainInsert.output caps (pre ++ v :: vs) pre.length = (caps.textOf v).map Text.points := by
  have harg : ∀ spelling, Engine.nextArg (pre ++ v :: vs) pre.length spelling = .ok v := by
    intro spelling
    rw [Engine.nextArg, List.getElem?_append_right (Nat.le_refl _), Nat.sub_self]
    rfl
  rw [plainInsert, Item.output, harg]
  show (caps.textOf v).bind _ = _
  cases caps.textOf v with
  | error f => rfl
  | ok t =>
    have hfield : field t (decimal []) false = t.points := by simp [field, decimal, Numeral.value]
    show (if maxWidth < decimal [] then Except.error (Engine.tooLarge maxWidth)
      else Except.ok (field t (decimal []) false)) = _
    rw [if_neg (by decide), hfield]
    rfl

/-- As many insertions as there are arguments left add the texts of these. -/
theorem outputs_inserts (caps : Capabilities) (pre vs : List Value) :
    Item.outputs caps (pre ++ vs) pre.length (List.replicate vs.length plainInsert)
      = (vs.mapM caps.textOf).map fun ts => ts.flatMap Text.points := by
  induction vs generalizing pre with
  | nil =>
    rw [List.length_nil, List.replicate_zero, Item.outputs]
    rfl
  | cons v vs ih =>
    have hrest := ih (pre ++ [v])
    rw [List.append_assoc, List.singleton_append, List.length_append,
      List.length_singleton] at hrest
    rw [List.length_cons, List.replicate_succ, Item.outputs, output_plainInsert, List.mapM_cons]
    cases caps.textOf v with
    | error f => rfl
    | ok t =>
      show (Item.outputs caps (pre ++ v :: vs) (pre.length + 1) _).bind _ = _
      rw [hrest]
      cases vs.mapM caps.textOf <;> rfl

/-- Without a bound, rendering a template of insertions is concatenation. -/
theorem format_valueTemplate (e : Engine) (hmax : e.maxOutput ≤ 0) (vs : List Value) :
    (e.format (valueTemplate vs.length) vs).result = e.caps.concatenate vs := by
  have houtputs := outputs_inserts e.caps [] vs
  rw [List.nil_append, List.length_nil] at houtputs
  rw [Engine.format_cut hmax (cut_valueTemplate vs.length), houtputs, Capabilities.concatenate]
  cases vs.mapM e.caps.textOf <;> rfl

/-! ### Expressions that join values -/

namespace Eval

variable {sv : Services} {es : List Expr}

theorem evalAll_length {vs : List Value} {s s' : EvalState} (h : evalAll sv es s = (.ok vs, s')) :
    vs.length = es.length := by
  induction es generalizing vs s s' with
  | nil =>
    rw [evalAll] at h
    cases h
    rfl
  | cons e es ih =>
    rw [evalAll] at h
    rcases he : eval sv e s with ⟨f | v, s₁⟩
    · rw [Action.bind_error he] at h
      cases h
    · rw [Action.bind_ok he] at h
      rcases hes : evalAll sv es s₁ with ⟨f | ws, s₂⟩
      · rw [Action.bind_error hes] at h
        cases h
      · rw [Action.bind_ok hes] at h
        cases h
        rw [List.length_cons, List.length_cons, ih hes]

/-- The expression `e` joins the values of `es`: it evaluates these, and then comes to the
concatenation of their values or fails with what concatenation fails with, placed at some
token. -/
def Joins (sv : Services) (es : List Expr) (e : Expr) : Prop :=
  ∃ (tok : Token) (join : List Value → Action Value),
    eval sv e = (do (join (← evalAll sv es)).placedAt tok) ∧
    ∀ vs s, vs.length = es.length →
      (join vs s).1 = (sv.caps.concatenate vs).map .text ∧ (join vs s).2.env = s.env

theorem joins_concat (tok : Token) : Joins sv es (.concat tok es) :=
  ⟨tok, concatenate sv, by rw [eval], fun _ _ _ => ⟨rfl, rfl⟩⟩

theorem joins_call (tok : Token) (parens : Bool) :
    Joins sv es (.message ⟨tok, concatenateName, parens⟩ es) := by
  refine ⟨tok, concatenate sv, ?_, fun _ _ _ => ⟨rfl, rfl⟩⟩
  rw [eval, if_pos rfl]

theorem send_format (casing : Casing) (engine : Engine) (tmpl : Text) (vs : List Value) :
    (TextMethods.send casing engine tmpl "format" vs).result
      = (engine.format tmpl vs).result.map .text := by
  have harity : Arity.admits "0+" vs.length = true :=
    (Arity.admits_least (d := ['0']) ⟨nofun, by simp, rfl⟩ (by decide)).mpr (Nat.zero_le _)
  have hsend : TextMethods.send casing engine tmpl "format" vs
      = if Arity.admits "0+" vs.length then (do return .text (← engine.format tmpl vs))
        else .fail (.make .arity (some [("Function", .text "format"), ("Got", .number vs.length),
          ("Want", .text (Arity.describe "0+"))])) := rfl
  rw [hsend, if_pos harity, Traced.result_bind]
  cases (engine.format tmpl vs).result <;> rfl

theorem joins_template (hcaps : sv.formatter.caps = sv.caps) (hmax : sv.formatter.maxOutput ≤ 0)
    (tok tok' tok'' : Token) (parens : Bool) :
    Joins sv es
      (.send tok (.text tok' (valueTemplate es.length)) ⟨tok'', "format", parens⟩ es) := by
  refine ⟨tok'', fun vs => send sv (.text (valueTemplate es.length)) "format" vs, ?_, ?_⟩
  · rw [eval, eval]
    rfl
  · intro vs s hlen
    refine ⟨?_, rfl⟩
    show (TextMethods.send sv.casing sv.formatter (valueTemplate es.length) "format" vs).result = _
    rw [send_format, ← hlen, format_valueTemplate sv.formatter hmax, hcaps]

/-- An expression that joins the values of `es` comes to their concatenation after evaluating
them. -/
theorem Joins.same {e : Expr} (h : Joins sv es e) (s : EvalState) :
    Action.Same (eval sv e s) ((evalAll sv es >>= concatenate sv) s) := by
  obtain ⟨tok, join, heval, hjoin⟩ := h
  rw [heval]
  rcases hes : evalAll sv es s with ⟨f | vs, s'⟩
  · rw [Action.bind_error hes, Action.bind_error hes]
    exact ⟨rfl, rfl⟩
  · rw [Action.bind_ok hes, Action.bind_ok hes]
    obtain ⟨hres, henv⟩ := hjoin vs s' (evalAll_length hes)
    exact (Action.same_placedAt (join vs) tok s').trans ⟨congrArg _ hres, henv⟩

/-- A concatenation without values is the empty text. -/
theorem joined_nil (sv : Services) (s : EvalState) :
    (evalAll sv [] >>= concatenate sv) s = (.ok (.text .empty), s) := by
  rw [evalAll]
  rfl

/-- A concatenation comes to a text, or fails. -/
theorem joined_text (sv : Services) (es : List Expr) (s : EvalState) :
    ∃ r : Except Failure Text, ((evalAll sv es >>= concatenate sv) s).1 = r.map .text := by
  rcases hes : evalAll sv es s with ⟨f | vs, s'⟩
  · rw [Action.bind_error hes]
    exact ⟨.error f, rfl⟩
  · rw [Action.bind_ok hes]
    exact ⟨sv.caps.concatenate vs, rfl⟩

/-- The three ways of joining values agree.  With one set of conversions and no bound on what is
rendered, a literal with some parts, the call of `internal:concatenateText` with these as
arguments, and the template of as many insertions formatted with these all come to the same text,
or fail alike but for the place, and leave the same scopes.  Without any values it is the empty
text. -/
theorem joins_agree (sv : Services) (hcaps : sv.formatter.caps = sv.caps)
    (hmax : sv.formatter.maxOutput ≤ 0) (es : List Expr) (s : EvalState)
    (tok₁ tok₂ tok₃ tok₄ tok₅ : Token) (parens parens' : Bool) :
    ∃ (r : Except Failure Text) (env : Env), (es = [] → r = .ok .empty) ∧
      ∀ e ∈ [Expr.concat tok₁ es, .message ⟨tok₂, concatenateName, parens⟩ es,
          .send tok₃ (.text tok₄ (valueTemplate es.length)) ⟨tok₅, "format", parens'⟩ es],
        (eval sv e s).1.mapError Failure.unplaced = (r.map .text).mapError Failure.unplaced ∧
        (eval sv e s).2.env = env := by
  obtain ⟨r, hr⟩ := joined_text sv es s
  refine ⟨r, ((evalAll sv es >>= concatenate sv) s).2.env, ?_, fun e he => ?_⟩
  · rintro rfl
    rw [joined_nil] at hr
    cases r with
    | error f => cases hr
    | ok t => exact congrArg Except.ok (Value.text.inj (Except.ok.inj hr)).symm
  · have hjoins : Joins sv es e := by
      simp only [List.mem_cons, List.not_mem_nil, or_false] at he
      obtain rfl | rfl | rfl := he
      · exact joins_concat tok₁
      · exact joins_call tok₂ parens
      · exact joins_template hcaps hmax tok₃ tok₄ tok₅ parens'
    obtain ⟨hres, henv⟩ := hjoins.same s
    rw [hr] at hres
    exact ⟨hres, henv⟩

/-- An integer and a text, the text being bound on the way. -/
theorem joins_agree_two :
    let x : MessageHead := ⟨.none, "x", false⟩
    let es : List Expr :=
      [.int .none 7, .binary .none (.message x []) .assign (.text .none ⟨[0x61]⟩), .message x []]
    (eval {} (.concat .none es) {}).1.toOption.any (·.same (.text ⟨[0x37, 0x61, 0x61]⟩)) = true ∧
      ((eval {} (.concat .none es) {}).2.env.get? "x").any (·.same (.text ⟨[0x61]⟩)) = true ∧
      ∃ (r : Except Failure Text) (env : Env),
        ∀ e ∈ [Expr.concat .none es, .message ⟨.none, concatenateName, true⟩ es,
            .send .none (.text .none (valueTemplate 3)) ⟨.none, "format", true⟩ es],
          (eval {} e {}).1.mapError Failure.unplaced = (r.map .text).mapError Failure.unplaced ∧
          (eval {} e {}).2.env = env := by
  intro x es
  obtain ⟨r, env, -, hall⟩ :=
    joins_agree {} rfl (by decide) es {} .none .none .none .none .none true true
  exact ⟨by decide +kernel, by decide +kernel, r, env, hall⟩

end Eval

end TextScript
