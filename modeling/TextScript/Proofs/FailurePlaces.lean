/-
TextScript/Proofs/FailurePlaces.lean

Failures of evaluation point into the source.

An operation on plain values fails without a place, and the node that asked for it gives its own
token's place to the failure.  A failure that has a place passes through all further nodes as it
is.  So along an evaluation the values stay plain, and a failure is at a token of the tree
(`Located`) — unless the tree sends `evaluateEscapes`, whose failures come with a place counted
from the start of the text that is decoded.  `Action.Sound good bad` is this invariant for one
action, and `eval_sound` carries it over a tree.  The tokens of the trees are tokens of the source
or of code embedded in it (`placedIn_closed`).
-/
import TextScript.Proofs.Evaluation
import TextScript.Proofs.PlainValues
import TextScript.Proofs.Trees

namespace TextScript

variable {α β : Type}

/-! ### Scopes of plain values -/

/-- All values in the scopes are plain. -/
def Env.Plain (e : Env) : Prop :=
  ∀ scope ∈ e.scopes, ∀ entry ∈ scope, entry.2.Plain

/-- What a name is bound to in scopes of plain values is plain. -/
theorem Env.Plain.get? {e : Env} {name : String} {v : Value} (h : e.Plain)
    (hv : e.get? name = some v) : v.Plain := by
  obtain ⟨scope, hscope, hlookup⟩ := List.exists_of_findSome?_eq_some hv
  exact h scope hscope _ (mem_of_lookup hlookup)

/-- After a binding an entry is the new one or was there before. -/
theorem Scope.mem_set {s : Scope} {name : String} {v : Value} {entry : String × Value}
    (h : entry ∈ s.set name v) : entry ∈ s ∨ entry.2 = v := by
  induction s with
  | nil =>
    rw [Scope.set, List.mem_singleton] at h
    exact .inr (by rw [h])
  | cons first rest ih =>
    obtain ⟨n, w⟩ := first
    rw [Scope.set] at h
    split at h
    · rcases List.mem_cons.mp h with rfl | hrest
      · exact .inr rfl
      · exact .inl (List.mem_cons_of_mem _ hrest)
    · rcases List.mem_cons.mp h with rfl | hrest
      · exact .inl List.mem_cons_self
      · exact (ih hrest).imp_left (List.mem_cons_of_mem _)

/-- Binding a plain value leaves scopes of plain values. -/
theorem Env.Plain.set {e : Env} {v : Value} (h : e.Plain) (name : String) (hv : v.Plain) :
    (e.set name v).Plain := by
  obtain ⟨hinner, houter⟩ := List.forall_mem_cons.mp h
  refine List.forall_mem_cons.mpr ⟨fun entry hentry => ?_, houter⟩
  rcases Scope.mem_set hentry with hold | hnew
  · exact hinner entry hold
  · exact hnew ▸ hv

/-! ### Failures at a token -/

/-- The failure is a report at the place of one of the tokens. -/
def Located (T : Token → Prop) (f : Failure) : Prop :=
  ∃ r, f.report? = some r ∧ ∃ tok, T tok ∧ r.place = tok.place

/-- The failures of a tree with tokens from `T` that sends messages of these names. -/
def Known (T : Token → Prop) (names : List String) (f : Failure) : Prop :=
  Located T f ∨ "evaluateEscapes" ∈ names ∧ Escaped f

/-- Reading on never leads back before the first line. -/
theorem line_pos_advance {p : Position} (h : 0 < p.line) (cs : List Char) :
    0 < (p.advance cs).line := by
  induction cs generalizing p with
  | nil => exact h
  | cons c cs ih =>
    rw [Position.advance_cons]
    apply ih
    unfold Position.step
    split
    · show 0 < p.line + 1
      omega
    · exact h

/-- Every token of a source is on a line of it. -/
theorem TokenIn.line_pos {src : List Char} {tok : Token} (h : TokenIn src tok) :
    0 < tok.place.line := by
  obtain ⟨_, _, pre, _, _, hplace⟩ := h
  rw [hplace]
  exact line_pos_advance (by decide) pre

/-- What decoding a text fails with is a report at a backslash, counted from the start of the
text. -/
theorem decode_report {cs : List Char} {f : Failure} (h : Escape.decode cs = .error f) :
    ∃ r seg rest, f.report? = some r ∧ cs = seg ++ '\\' :: rest ∧ r.place = behind seg := by
  obtain ⟨seg, rest, fault, hcs, -, -, rfl⟩ := decodePoints_fault (map_eq_error.mp h)
  cases fault with
  | unknown c => exact ⟨_, seg, rest, rfl, hcs, rfl⟩
  | shortUnicode ds => exact ⟨_, seg, rest, rfl, hcs, rfl⟩

/-- A failure of decoding has a place and keeps it. -/
theorem Escaped.placeAt {f : Failure} (h : Escaped f) (p : Position) : f.placeAt p = f := by
  obtain ⟨t, hdecode⟩ := h
  obtain ⟨r, seg, rest, hr, -, hplace⟩ := decode_report hdecode
  have hline : ¬(r.place.line = 0 ∧ 0 < p.line) := by
    have hpos : 0 < (behind seg).line := line_pos_advance (by decide) seg
    rw [hplace]
    omega
  cases f with
  | plain m => cases hr
  | coded r' => cases hr; exact congrArg Failure.coded (if_neg hline)
  | wrapped r' c => cases hr; exact congrArg (Failure.wrapped · c) (if_neg hline)

/-! ### Actions -/

namespace Action

variable {good : α → Prop} {better : β → Prop} {bad worse : Failure → Prop} {x : Action α}
variable {T : Token → Prop} {names : List String}

/-- From scopes of plain values, the action comes to one of `good` or fails with one of `bad`, and
leaves scopes of plain values. -/
def Sound (good : α → Prop) (bad : Failure → Prop) (x : Action α) : Prop :=
  ∀ s : EvalState, s.env.Plain → (x s).2.env.Plain ∧ Ends good bad (x s).1

theorem Sound.mono (h : x.Sound good bad) (hbad : ∀ f, bad f → worse f) : x.Sound good worse :=
  fun s hs => ⟨(h s hs).1, (h s hs).2.mono hbad⟩

theorem sound_lift {r : Except Failure α} (h : Ends good bad r) : (lift r).Sound good bad :=
  fun _ hs => ⟨hs, h⟩

theorem sound_pure {a : α} (h : good a) : (pure a : Action α).Sound good bad :=
  fun _ hs => ⟨hs, h⟩

theorem sound_fail {f : Failure} (h : bad f) : (fail f : Action α).Sound good bad :=
  fun _ hs => ⟨hs, h⟩

theorem sound_ofTraced {t : Traced α} (h : Ends good bad t.result) : (ofTraced t).Sound good bad :=
  fun _ hs => ⟨hs, h⟩

theorem sound_env : env.Sound Env.Plain bad :=
  fun _ hs => ⟨hs, hs⟩

theorem sound_bindName (name : String) {v : Value} (hv : v.Plain) :
    (bindName name v).Sound Value.Plain bad :=
  fun _ hs => ⟨hs.set name hv, hv⟩

/-- A plain value takes no mark. -/
theorem sound_settle {v : Value} (hv : v.Plain) : (settle v).Sound Value.Plain bad := by
  intro s hs
  unfold settle
  rw [hv.settle_eq]
  exact ⟨hs, hv⟩

/-- One computation after another fails as one of the two does. -/
theorem Sound.bind {f : α → Action β} (h : x.Sound good bad)
    (hf : ∀ a, good a → (f a).Sound better bad) : (x >>= f).Sound better bad := by
  intro s hs
  obtain ⟨henv, hends⟩ := h s hs
  rcases hx : x s with ⟨e | a, s'⟩ <;> rw [hx] at henv hends
  · rw [bind_error hx]
    exact ⟨henv, hends⟩
  · rw [bind_ok hx]
    exact hf a hends s' henv

/-- A node gives its token's place to a failure without a place, and leaves what decoding failed
with. -/
theorem Sound.placedAt {tok : Token}
    (h : x.Sound good fun f => f.Loose ∨ "evaluateEscapes" ∈ names ∧ Escaped f) (htok : T tok)
    (hline : 0 < tok.place.line) : (x.placedAt tok).Sound good (Known T names) := by
  intro s hs
  obtain ⟨henv, hends⟩ := h s hs
  unfold Action.placedAt
  rcases hx : x s with ⟨f | a, s'⟩ <;> rw [hx] at henv hends
  · refine ⟨henv, ?_⟩
    rcases hends with hloose | ⟨hname, hescaped⟩
    · obtain ⟨r, hr, hplace⟩ := hloose.placeAt hline
      exact .inl ⟨r, hr, tok, htok, hplace⟩
    · refine .inr ⟨hname, ?_⟩
      rw [hescaped.placeAt]
      exact hescaped
  · exact ⟨henv, hends⟩

/-- A failure without a place gets that of a token of the source. -/
theorem Sound.placedAt_loose {tok : Token} (h : x.Sound good Failure.Loose) (htok : T tok)
    (hline : 0 < tok.place.line) : (x.placedAt tok).Sound good (Known T names) :=
  (h.mono fun _ hf => .inl hf).placedAt htok hline

end Action

/-! ### Trees -/

/-- The tokens of the tree that a failure may be placed at are from `T`, and all of its nodes are
the language's own. -/
inductive Expr.PlacedIn (T : Token → Prop) : Expr → Prop
  | message {head : MessageHead} {args : List Expr} : T head.tok → (∀ e ∈ args, PlacedIn T e) →
      PlacedIn T (.message head args)
  | send {tok : Token} {receiver : Expr} {head : MessageHead} {args : List Expr} :
      PlacedIn T receiver → T head.tok → (∀ e ∈ args, PlacedIn T e) →
      PlacedIn T (.send tok receiver head args)
  | int (tok : Token) (n : Int64) : PlacedIn T (.int tok n)
  | text (tok : Token) (v : Text) : PlacedIn T (.text tok v)
  | concat {tok : Token} {parts : List Expr} : T tok → (∀ e ∈ parts, PlacedIn T e) →
      PlacedIn T (.concat tok parts)
  | unary {tok : Token} {op : UnaryOp} {operand : Expr} : T tok → PlacedIn T operand →
      PlacedIn T (.unary tok op operand)
  | binary {tok : Token} {left right : Expr} {op : BinaryOp} : T tok → PlacedIn T left →
      PlacedIn T right → PlacedIn T (.binary tok left op right)
  | index {tok : Token} {target position : Expr} : T tok → PlacedIn T target → PlacedIn T position →
      PlacedIn T (.index tok target position)
  | list {tok : Token} {items : List Expr} :
      (∀ e ∈ items, PlacedIn T e) → PlacedIn T (.list tok items)

/-- A tree is placed in the source if its tokens are and its parts are. -/
theorem placedIn_closed (T : Token → Prop) : Expr.Closed T (Expr.PlacedIn T) where
  message {receiver _ _ _} htok _ hreceiver _ hargs := by
    cases receiver with
    | none => exact .message htok hargs
    | some r => exact .send (hreceiver r rfl) htok hargs
  int _ _ _ := .int _ _
  folded _ _ _ _ := .int _ _
  text _ _ _ := .text _ _
  concat htok _ _ _ hall := .concat htok hall
  unary htok _ hoperand := .unary htok hoperand
  binary htok _ _ hleft hright := .binary htok hleft hright
  index htok _ htarget hposition := .index htok htarget hposition
  list _ _ hitems := .list hitems

namespace Expr

mutual

/-- The names of the messages that the tree sends to a receiver, at any depth. -/
def sent : Expr → List String
  | message _ args => sentAll args
  | send _ receiver head args => head.name :: (receiver.sent ++ sentAll args)
  | int _ _ => []
  | text _ _ => []
  | concat _ parts => sentAll parts
  | unary _ _ operand => operand.sent
  | binary _ left _ right => left.sent ++ right.sent
  | index _ target position => target.sent ++ position.sent
  | list _ items => sentAll items
  | host _ _ _ => []
  | foreign _ => []

/-- The names of the messages that the trees send to a receiver. -/
def sentAll : List Expr → List String
  | [] => []
  | e :: es => e.sent ++ sentAll es

end

end Expr

namespace Eval

open TextScript.Action

variable {sv : Services} {T : Token → Prop} {names : List String} {bad : Failure → Prop}
variable {left right : Expr}

/-- Joining plain values does not fail. -/
theorem concatenate_sound (hcaps : sv.caps = .native) {vs : List Value} (h : AllPlain vs) :
    (concatenate sv vs).Sound Value.Plain bad := by
  obtain ⟨t, ht⟩ := Capabilities.exists_concatenate h
  unfold concatenate
  rw [hcaps, ht]
  exact sound_lift (show Ends Value.Plain bad (.ok (.text t)) from .text t)

/-- Sending a message with plain values fails as the method does. -/
theorem send_sound (hcaps : sv.caps = .native) (hformatter : sv.formatter.caps = .native)
    {recv : Value} (hrecv : recv.Plain) (name : String) {args : List Value}
    (hargs : AllPlain args) :
    (send sv recv name args).Sound Value.Plain (TextMethods.Fails name) := by
  unfold send
  split
  · exact sound_ofTraced (TextMethods.send_ends hformatter _ _ hargs)
  · split
    · obtain ⟨t, ht⟩ := hrecv.exists_text
      have htext : sv.caps.toText recv = .ok t := by rw [hcaps]; exact ht
      rw [htext]
      exact sound_lift (show Ends Value.Plain (TextMethods.Fails _) (.ok (.text t)) from .text t)
    · exact sound_pure (.bool _)
    · exact sound_pure (.bool _)
    · exact sound_fail (.inl (Failure.loose_unknownMethod _ _ _))

/-- Looking a name up fails without a place. -/
theorem lookUp_sound (name : String) (n : Nat) :
    (lookUp name n).Sound Value.Plain Failure.Loose := by
  refine sound_env.bind fun env henv => ?_
  split
  · exact sound_fail (Failure.loose_undefinedName _ _)
  · next v hv =>
    split
    · exact sound_fail (Failure.loose_make _ _)
    · exact sound_pure (henv.get? hv)

/-- Operators between two values: a failure is that of a side, or is placed at the operator. -/
theorem binary_sound {tok : Token} {op : BinaryOp} (hformatter : sv.formatter.caps = .native)
    (htok : T tok) (hline : 0 < tok.place.line)
    (hleft : (eval sv left).Sound Value.Plain (Known T names))
    (hright : (eval sv right).Sound Value.Plain (Known T names)) :
    (eval sv (.binary tok left op right)).Sound Value.Plain (Known T names) := by
  -- a failure of an operand has its place already; the operator's own is placed at its token
  cases operatorCase left op with
  | assign hname =>
    rw [hname, eval]
    exact hright.bind fun v hv => sound_bindName _ hv
  | noTarget hother =>
    rw [eval_no_target hother]
    exact (sound_fail (Failure.loose_make _ _)).placedAt_loose htok hline
  | and =>
    rw [eval]
    refine hleft.bind fun l hl => ?_
    split
    · exact hright
    · exact sound_pure hl
  | or =>
    rw [eval]
    refine hleft.bind fun l hl => ?_
    split
    · exact sound_pure hl
    · exact hright
  | both h₁ h₂ h₃ =>
    rw [eval_operator h₁ h₂ h₃]
    refine hleft.bind fun l _ => hright.bind fun r hr => ?_
    exact (sound_ofTraced (binary_ends hformatter op l hr)).placedAt_loose htok hline

mutual

/-- Evaluating a tree from scopes of plain values comes to a plain value, or fails at a token of
the tree or in `evaluateEscapes`. -/
theorem eval_sound (hcaps : sv.caps = .native) (hformatter : sv.formatter.caps = .native)
    (hT : ∀ tok, T tok → 0 < tok.place.line) (e : Expr) (h : e.PlacedIn T)
    (hsent : e.sent ⊆ names) :
    (eval sv e).Sound Value.Plain (Known T names) := by
  -- in each case the parts are sound, and what the node itself adds fails loosely until it is
  -- placed at the node's token; only a sent message may fail with places of its own
  cases e with
  | int tok n => exact sound_pure (.int n)
  | text tok t => exact sound_pure (.text t)
  | concat tok parts =>
    cases h with
    | concat htok hparts =>
      rw [eval]
      refine (evalAll_sound hcaps hformatter hT parts hparts hsent).bind fun vs hvs => ?_
      exact (concatenate_sound hcaps hvs).placedAt htok (hT tok htok)
  | list tok items =>
    cases h with
    | list hitems =>
      rw [eval]
      exact (evalAll_sound hcaps hformatter hT items hitems hsent).bind fun vs hvs =>
        sound_settle (.list hvs)
  | message head args =>
    cases h with
    | message htok hargs =>
      rw [eval]
      split
      · refine (evalAll_sound hcaps hformatter hT args hargs hsent).bind fun vs hvs => ?_
        exact (concatenate_sound hcaps hvs).placedAt htok (hT _ htok)
      · exact (lookUp_sound _ _).placedAt_loose htok (hT _ htok)
  | send tok receiver head args =>
    cases h with
    | send hreceiver htok hargs =>
      rw [Expr.sent, List.cons_subset, List.append_subset] at hsent
      obtain ⟨hname, hsentReceiver, hsentArgs⟩ := hsent
      rw [eval]
      refine (eval_sound hcaps hformatter hT receiver hreceiver hsentReceiver).bind
        fun recv hrecv => ?_
      refine (evalAll_sound hcaps hformatter hT args hargs hsentArgs).bind fun vs hvs => ?_
      refine ((send_sound hcaps hformatter hrecv head.name hvs).mono fun f hf => ?_).placedAt htok
        (hT _ htok)
      exact hf.imp_right fun ⟨heq, hescaped⟩ => ⟨heq ▸ hname, hescaped⟩
  | unary tok op operand =>
    cases h with
    | unary htok hoperand =>
      rw [eval]
      refine (eval_sound hcaps hformatter hT operand hoperand hsent).bind fun v _ => ?_
      exact (sound_lift (unary_ends op v)).placedAt_loose htok (hT tok htok)
  | binary tok left op right =>
    cases h with
    | binary htok hleft hright =>
      rw [Expr.sent, List.append_subset] at hsent
      exact binary_sound hformatter htok (hT tok htok)
        (eval_sound hcaps hformatter hT left hleft hsent.1)
        (eval_sound hcaps hformatter hT right hright hsent.2)
  -- trees that are placed in a source have no host code and no foreign nodes
  | host => nomatch h
  | index tok target position =>
    cases h with
    | index htok htarget hposition =>
      rw [Expr.sent, List.append_subset] at hsent
      rw [eval]
      refine (eval_sound hcaps hformatter hT target htarget hsent.1).bind fun t ht => ?_
      refine (eval_sound hcaps hformatter hT position hposition hsent.2).bind fun i hi => ?_
      refine Sound.bind ?_ fun v hv => sound_settle hv
      exact (sound_ofTraced (indexBy_ends hformatter ht hi)).placedAt_loose htok (hT tok htok)
  | foreign => nomatch h

theorem evalAll_sound (hcaps : sv.caps = .native) (hformatter : sv.formatter.caps = .native)
    (hT : ∀ tok, T tok → 0 < tok.place.line) (es : List Expr) (h : ∀ e ∈ es, e.PlacedIn T)
    (hsent : Expr.sentAll es ⊆ names) : (evalAll sv es).Sound AllPlain (Known T names) := by
  cases es with
  | nil => exact sound_pure (List.forall_mem_nil _)
  | cons e es =>
    obtain ⟨he, hes⟩ := List.forall_mem_cons.mp h
    rw [Expr.sentAll, List.append_subset] at hsent
    rw [evalAll]
    refine (eval_sound hcaps hformatter hT e he hsent.1).bind fun v hv => ?_
    refine (evalAll_sound hcaps hformatter hT es hes hsent.2).bind fun vs hvs => ?_
    exact sound_pure (List.forall_mem_cons.mpr ⟨hv, hvs⟩)

end

/-! ### Programs -/

theorem reporting_sound {good : Value → Prop} {x : Action Value} (h : x.Sound good bad) (e : Expr) :
    (reporting e x).Sound good bad := by
  intro s hs
  obtain ⟨henv, hends⟩ := h s hs
  unfold reporting
  rcases hx : x s with ⟨f | v, s'⟩ <;> rw [hx] at henv hends <;> exact ⟨henv, hends⟩

/-- A program fails at a token of the source, or as the one method does that has places of its
own. -/
theorem evalFrom_sound (hcaps : sv.caps = .native) (hformatter : sv.formatter.caps = .native)
    (hT : ∀ tok, T tok → 0 < tok.place.line) {prog : Program} (h : ∀ e ∈ prog, e.PlacedIn T)
    (hsent : Expr.sentAll prog ⊆ names) {v : Value} (hv : v.Plain) :
    (evalFrom sv v prog).Sound Value.Plain (Known T names) := by
  induction prog generalizing v with
  | nil => exact sound_pure hv
  | cons e prog ih =>
    obtain ⟨he, hprog⟩ := List.forall_mem_cons.mp h
    rw [Expr.sentAll, List.append_subset] at hsent
    rw [evalFrom]
    exact (reporting_sound (eval_sound hcaps hformatter hT e he hsent.1) e).bind fun w hw =>
      ih hprog hsent.2 hw

end Eval

/-- When an accepted program fails, with the language's own conversions and from scopes of plain
values, the failure is a report at the place, in the whole source, of a token of the source or of
code embedded in it. Only the decoding of a text by `evaluateEscapes`, if the program sends that,
is reported at a backslash of the text itself, as if the source began with it. -/
theorem failure_at_token {o : ParseOptions} {src : List Char} {prog : Program}
    (ho : o.embedded = none) (h : (Source.parse o src).toTraced.result = .ok prog)
    (sv : Services) (hcaps : sv.caps = .native) (hformatter : sv.formatter.caps = .native)
    (s : EvalState) (hs : s.env.Plain) {f : Failure}
    {s' : EvalState} (hfail : Eval.evalProgram sv prog s = (.error f, s')) :
    ∃ r, f.report? = some r ∧
      ((∃ tok, TokenIn src tok ∧ r.place = tok.place) ∨
        "evaluateEscapes" ∈ Expr.sentAll prog ∧ ∃ (t : Text) (seg rest : List Char),
          Escape.decode t.toChars = .error f ∧ t.toChars = seg ++ '\\' :: rest ∧
            r.place = behind seg) := by
  have htrees := parse_induction (placedIn_closed (TokenIn src)) ho h
  have hsound : (Eval.evalProgram sv prog).Sound Value.Plain
      (Known (TokenIn src) (Expr.sentAll prog)) :=
    Eval.evalFrom_sound hcaps hformatter (fun _ => TokenIn.line_pos) htrees
      (List.Subset.refl _) .nil
  obtain ⟨-, hends⟩ := hsound s hs
  rw [hfail] at hends
  rcases hends with ⟨r, hr, tok, htok, hplace⟩ | ⟨hname, t, hdecode⟩
  · exact ⟨r, hr, .inl ⟨tok, htok, hplace⟩⟩
  · obtain ⟨r, seg, rest, hr, hseg, hplace⟩ := decode_report hdecode
    exact ⟨r, hr, .inr ⟨hname, t, seg, rest, hdecode, hseg, hplace⟩⟩

theorem Env.plain_root : ({} : Env).Plain := by
  intro scope hscope entry hentry
  rw [List.mem_singleton.mp hscope] at hentry
  simp only [Scope.root, List.mem_cons, List.not_mem_nil, or_false] at hentry
  obtain rfl | rfl | rfl := hentry
  · exact .nil
  · exact .bool true
  · exact .bool false

/-- Where a program fails from the outermost scope, if it fails with a report. -/
def failurePlace? (prog : Program) : Option Position :=
  match (Eval.evalProgram {} prog {}).1 with
  | .error f => f.report?.map Report.place
  | .ok _ => none

/-- A text of two characters has no category: the failure is at the name of the message, in an
interpolation on the second line.  A bad escape in a text that is decoded is at the second
character of the source, where no token is. -/
theorem failure_at_token_category :
    let src := "x = 1\n\"a#\x7b\"bc\" category\x7d\"".toList
    let prog := (Source.parse {} src).program
    let decoding := "\"a\\\\q\" evaluateEscapes".toList
    (Source.parse {} src).toTraced.result = .ok prog ∧ failurePlace? prog = some ⟨2, 10⟩ ∧
      (∃ tok, TokenIn src tok ∧ tok.place = ⟨2, 10⟩) ∧
      failurePlace? (Source.parse {} decoding).program = some ⟨1, 2⟩ ∧
      (Lexer.tokens 64 {} decoding).map Token.place = [⟨1, 1⟩, ⟨1, 8⟩, ⟨1, 23⟩] := by
  intro src prog decoding
  have h : (Source.parse {} src).toTraced.result = .ok prog := by
    have hok : (Source.parse {} src).failure = none := by decide +kernel
    rw [Parsed.toTraced, hok]
  have hplace : failurePlace? prog = some ⟨2, 10⟩ := by decide +kernel
  have hsent : "evaluateEscapes" ∉ Expr.sentAll prog := by decide +kernel
  refine ⟨h, hplace, ?_, by decide +kernel, by decide +kernel⟩
  unfold failurePlace? at hplace
  rcases hrun : Eval.evalProgram {} prog {} with ⟨f | v, s'⟩ <;> rw [hrun] at hplace
  · obtain ⟨r, hr, ⟨tok, htok, heq⟩ | ⟨hname, -⟩⟩ :=
      failure_at_token rfl h {} rfl rfl {} Env.plain_root hrun
    · have hreport : f.report?.map Report.place = some ⟨2, 10⟩ := hplace
      rw [hr] at hreport
      exact ⟨tok, htok, heq.symm.trans (Option.some.inj hreport)⟩
    · exact absurd hname hsent
  · cases hplace

end TextScript
