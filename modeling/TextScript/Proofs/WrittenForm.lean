/-
TextScript/Proofs/WrittenForm.lean

The written form of a program, read again.

A tree without operators is written as one operand: a primary, or an integer with its sign, and
then messages and indices (`Term`).  Its written form is cut into the tokens of such an operand
whatever may follow it, and these stand for the tree again, except that a literal with
interpolations has become a call of `internal:concatenateText` (`Expr.called`).  So the written
form is read as a tree that differs in its tokens only, and evaluation makes nothing of that, nor
of the call (`eval_called`).

That trees can be written at all is a fact about the source they come from: a name was a token
there, an integer is not the least one, and a text is made of code points (`Expr.Printable`).
-/
import TextScript.Proofs.Alike
import TextScript.Proofs.Joining
import TextScript.Proofs.Operands
import TextScript.Proofs.Spelling
import TextScript.Proofs.Trees

namespace TextScript

open Lexer ParseState

/-! ### Trees without operators -/

/-- Whether some point of a text is half of a surrogate pair. -/
def Text.hasSurrogate (t : Text) : Bool :=
  t.points.any fun n => 0xD800 ≤ n && n ≤ 0xDFFF

mutual

/-- Whether there are no operators in a tree, nothing of the embedding program, and no text with a
surrogate. -/
def Expr.operatorFree : Expr → Bool
  | .message _ args => Expr.operatorFreeAll args
  | .send _ receiver _ args => receiver.operatorFree && Expr.operatorFreeAll args
  | .int .. => true
  | .text _ value => !value.hasSurrogate
  | .concat _ parts => Expr.operatorFreeAll parts
  | .unary .. => false
  | .binary .. => false
  | .index _ target position => target.operatorFree && position.operatorFree
  | .list _ items => Expr.operatorFreeAll items
  | .host .. => false
  | .foreign _ => false

/-- Whether all of some trees are such. -/
def Expr.operatorFreeAll : List Expr → Bool
  | [] => true
  | e :: es => e.operatorFree && Expr.operatorFreeAll es

end

mutual

/-- The tree with a call of `internal:concatenateText` for every literal with interpolations. -/
def Expr.called : Expr → Expr
  | .message head args => .message head (Expr.calledAll args)
  | .send tok receiver head args => .send tok receiver.called head (Expr.calledAll args)
  | .int tok value => .int tok value
  | .text tok value => .text tok value
  | .concat tok parts => .message ⟨tok, concatenateName, true⟩ (Expr.calledAll parts)
  | .unary tok op operand => .unary tok op operand.called
  | .binary tok left op right => .binary tok left.called op right.called
  | .index tok target position => .index tok target.called position.called
  | .list tok items => .list tok (Expr.calledAll items)
  | .host tok source run => .host tok source run
  | .foreign label => .foreign label

/-- The trees with calls. -/
def Expr.calledAll : List Expr → List Expr
  | [] => []
  | e :: es => e.called :: Expr.calledAll es

end

@[simp] theorem Expr.operatorFreeAll_eq (es : List Expr) :
    Expr.operatorFreeAll es = es.all Expr.operatorFree := by
  induction es with
  | nil => rfl
  | cons e es ih => rw [Expr.operatorFreeAll, ih, List.all_cons]

@[simp] theorem Expr.calledAll_eq (es : List Expr) : Expr.calledAll es = es.map Expr.called := by
  induction es with
  | nil => rfl
  | cons e es ih => rw [Expr.calledAll, ih, List.map_cons]

/-- A tree without operators that can be written down. -/
inductive Expr.Printable : Expr → Prop
  | message {head : MessageHead} {args : List Expr} : IsName head.name.toList →
      (head.parens = false → args = []) → (∀ e ∈ args, Printable e) →
      Printable (.message head args)
  | send {tok : Token} {receiver : Expr} {head : MessageHead} {args : List Expr} :
      IsName head.name.toList → Printable receiver → (head.parens = false → args = []) →
      (∀ e ∈ args, Printable e) → Printable (.send tok receiver head args)
  /-- The least integer is written with digits that are read as none. -/
  | int {tok : Token} {n : Int64} : Int64.minValue.toInt < n.toInt → Printable (.int tok n)
  | text {tok : Token} {v : Text} : (∀ n ∈ v.points, IsScalar n) → Printable (.text tok v)
  | concat {tok : Token} {parts : List Expr} : (∀ e ∈ parts, Printable e) →
      Printable (.concat tok parts)
  | index {tok : Token} {target position : Expr} : Printable target → Printable position →
      Printable (.index tok target position)
  | list {tok : Token} {items : List Expr} : (∀ e ∈ items, Printable e) →
      Printable (.list tok items)

variable {src : List Char} {tok : Token} {e : Expr} {es : List Expr}

theorem TokenIn.isName (h : TokenIn src tok) (hk : tok.kind = .ident) : IsName tok.lit.toList := by
  obtain ⟨lead, cs, pre, -, ⟨limit, spots, -, htokens, hmem⟩, -⟩ := h
  have htok : tok ∈ tokens limit (behind lead) cs := htokens ▸ List.mem_map_of_mem hmem
  exact isName_of_mem_tokens htok hk

theorem isScalar_of_isPoint {v : Text} (h : ∀ n ∈ v.points, IsPoint n)
    (hs : v.hasSurrogate = false) :
    ∀ n ∈ v.points, IsScalar n := by
  intro n hn
  obtain ⟨hlow, hhigh⟩ := h n hn
  have hno := List.any_eq_false.mp hs n hn
  simp only [Bool.and_eq_true, decide_eq_true_eq] at hno
  unfold IsScalar
  omega

/-- The trees of a source can be written down, those without operators. -/
theorem printable_closed (src : List Char) :
    Expr.Closed (TokenIn src) fun e => e.operatorFree = true → e.Printable where
  message {receiver tok parens args} htok hk hreceiver hparens hargs := by
    cases receiver with
    | none =>
      intro h
      simp only [Frame.message, Expr.operatorFree, Expr.operatorFreeAll_eq, List.all_eq_true] at h
      exact .message (htok.isName hk) hparens fun e he => hargs e he (h e he)
    | some r =>
      intro h
      simp only [Frame.message, Expr.operatorFree, Expr.operatorFreeAll_eq, Bool.and_eq_true,
        List.all_eq_true] at h
      exact .send (htok.isName hk) (hreceiver r rfl h.1) hparens fun e he => hargs e he (h.2 e he)
  -- a numeral is not negative, and a folded one is the negation of such a number; so neither is
  -- the least word, which cannot be written down
  int _ _ hn _ := by
    have hpos := integer?_nonneg hn
    exact .int (Int.lt_of_lt_of_le (by decide) hpos)
  folded {_ _ n} _ _ _ hn _ := by
    have hpos := integer?_nonneg hn
    have hlt := n.toInt_lt
    have hmin : Int64.minValue.toInt = -2 ^ 63 := by decide
    have hneg : (-n).toInt = -n.toInt := by
      rw [Int64.toInt_neg, Int.bmod_eq_of_le (by omega) (by omega)]
    exact .int (by omega)
  text _ _ hv h := by
    simp only [Expr.operatorFree, Bool.not_eq_true'] at h
    obtain ⟨ns, hns, rfl⟩ := map_eq_ok.mp hv
    exact .text (isScalar_of_isPoint (isPoint_decodePoints hns) h)
  concat _ _ _ _ hall h := by
    simp only [Expr.operatorFree, Expr.operatorFreeAll_eq, List.all_eq_true] at h
    exact .concat fun e he => hall e he (h e he)
  unary _ _ _ h := by cases h
  binary _ _ _ _ _ h := by cases h
  index _ _ htarget hposition h := by
    simp only [Expr.operatorFree, Bool.and_eq_true] at h
    exact .index (htarget h.1) (hposition h.2)
  list _ _ hitems h := by
    simp only [Expr.operatorFree, Expr.operatorFreeAll_eq, List.all_eq_true] at h
    exact .list fun e he => hitems e he (h e he)

/-! ### One operand -/

section Terms

variable {literal : Token → Traced Expr} {t : ParseState} {toks : List Token}

/-- `Term literal toks e`: the tokens are a primary, or an integer with its sign, and suffixes,
and stand for `e`. -/
inductive Term (literal : Token → Traced Expr) : List Token → Expr → Prop
  | primary {toks : List Token} {e : Expr} : Primary literal toks e → Term literal toks e
  | negative {sign tok : Token} {n : Int64} : sign.kind = .minus → tok.kind = .int →
      integer? tok.lit = some n → Term literal [sign, tok] (negated sign tok n)
  | suffix {toks rest : List Token} {e : Expr} {f : Expr → Expr} : Term literal toks e →
      Suffix literal rest f → Term literal (toks ++ rest) (f e)

theorem Term.leaves (h : Term literal toks e) (hs : t.stage = .start) (hsign : NoSign t toks) :
    Leaves (toks.foldl (step literal) t) t.stack t.done e := by
  induction h with
  | primary hprimary => exact hprimary.leaves hs hsign
  | @negative sign _ _ hminus hk hn =>
    have hstep : t.step literal sign = t.push (.unary sign .negate) :=
      step_sign hs (by rw [hminus]; rfl)
    rw [List.foldl_cons, List.foldl_cons, List.foldl_nil, hstep]
    exact leaves_negated rfl rfl hk hn
  | suffix _ hsuffix ih =>
    rw [List.foldl_append]
    exact hsuffix.leaves (ih hsign.front)

/-- At the end of the input a term is the only expression. -/
theorem Term.run {last : Token} (h : Term literal toks e) (hlast : last.kind = .eof) :
    (ParseState.run literal (toks ++ [last])).failure? = none ∧
      (ParseState.run literal (toks ++ [last])).done = [e] := by
  have hsign : NoSign {} toks := fun _ _ _ _ _ hstack => by cases hstack
  have hender : last.kind ∈ TokenKind.enders := by simp [hlast, TokenKind.enders]
  obtain ⟨s, hstack, hdone, hrun⟩ := ((h.leaves rfl hsign).reads Strength.lowest).finish hender
  rw [ParseState.run, hrun]
  simp [ParseState.finish, hstack, hdone, reduce, hlast, failure?]

theorem Term.alone (h : Term literal toks e)
    (hline : ∀ tok ∈ toks, tok.kind ≠ .terminator ∧ tok.kind ≠ .eof) : Alone literal toks e :=
  ⟨hline, { kind := .eof }, rfl, h.run rfl⟩

/-- `Headed literal tok toks parens es`: the tokens are the name `tok` of a message, and its
arguments if there are parentheses. -/
inductive Headed (literal : Token → Traced Expr) (tok : Token) :
    List Token → (parens : Bool) → List Expr → Prop
  | name : tok.kind = .ident → Headed literal tok [tok] false []
  | call {opening closing : Token} {toks : List Token} {es : List Expr} : tok.kind = .ident →
      opening.kind = .lparen → Items literal toks es → closing.kind = .rparen →
      Headed literal tok (tok :: opening :: (toks ++ [closing])) true es

variable {parens : Bool}

theorem Headed.primary (h : Headed literal tok toks parens es) :
    Primary literal toks (.message ⟨tok, tok.lit, parens⟩ es) := by
  cases h with
  | name hk => exact .name hk
  | call hk hopen hitems hclose => exact .call hk hopen hitems hclose

theorem Headed.suffix (h : Headed literal tok toks parens es) :
    Suffix literal toks fun e => .send tok e ⟨tok, tok.lit, parens⟩ es := by
  cases h with
  | name hk => exact .send hk
  | call hk hopen hitems hclose => exact .call hk hopen hitems hclose

end Terms

/-! ### The written form of a tree -/

section Written

variable {limit : Int} {literal : Token → Traced Expr} {cs : List Char} {name : String}
variable {args : List Expr} {parens : Bool}

/-- `ReadAs limit literal cs e`: wherever they stand, the characters are the tokens of a term, which
stands for `e` but for tokens and with calls for literals with interpolations. -/
def ReadAs (limit : Int) (literal : Token → Traced Expr) (cs : List Char) (e : Expr) : Prop :=
  Spells limit cs fun toks => ∃ e', Term literal toks e' ∧ e'.bare = e.called.bare

theorem ReadAs.alone (h : ReadAs limit literal cs e) :
    Spells limit cs fun toks => ∃ e', Alone literal toks e' ∧ e'.bare = e.called.bare :=
  h.imp fun _ hline ⟨e', hterm, he⟩ => ⟨e', hterm.alone hline, he⟩

/-- Trees with commas between them. -/
theorem spells_items (h : ∀ e ∈ args, ReadAs limit literal e.render.toList e) :
    Spells limit (", ".intercalate (Expr.renderAll args)).toList fun toks =>
      ∃ es, Items literal toks es ∧ es.map Expr.bare = args.map fun e => e.called.bare := by
  induction args with
  | nil =>
    rw [Expr.renderAll, String.intercalate_nil]
    refine Spells.nil.imp fun toks _ htoks => ⟨[], ?_, rfl⟩
    rw [htoks]
    exact .none
  | cons e args ih =>
    obtain ⟨he, hargs⟩ := List.forall_mem_cons.mp h
    cases args with
    | nil =>
      rw [Expr.renderAll, Expr.renderAll, String.intercalate_singleton]
      refine he.alone.imp fun toks _ ⟨e', halone, hsame⟩ => ⟨[e'], .last halone, ?_⟩
      simp [hsame]
    | cons e₂ args =>
      rw [Expr.renderAll, Expr.renderAll, String.intercalate_cons_cons, ← Expr.renderAll,
        String.toList_append, String.toList_append, List.append_assoc]
      refine (he.alone.comma (ih hargs)).imp fun toks _ ht => ?_
      obtain ⟨front, comma, back, rfl, hcomma, ⟨e', halone, hsame⟩, es, hitems, hrest⟩ := ht
      refine ⟨e' :: es, .more halone hcomma hitems, ?_⟩
      rw [List.map_cons, List.map_cons, hsame, hrest]

/-- The name of a message, and its arguments. -/
theorem spells_head (hname : IsName name.toList) (hparens : parens = false → args = [])
    (h : ∀ e ∈ args, ReadAs limit literal e.render.toList e) :
    Spells limit (name ++ Expr.renderArgs parens (Expr.renderAll args)).toList fun toks =>
      ∃ tok es, Headed literal tok toks parens es ∧ tok.lit = name ∧
        es.map Expr.bare = args.map fun e => e.called.bare := by
  cases parens with
  | false =>
    obtain rfl := hparens rfl
    rw [Expr.renderArgs, if_neg Bool.false_ne_true, String.append_empty]
    refine (Spells.name hname).imp fun toks _ ht => ?_
    obtain ⟨tok, rfl, hk, hlit⟩ := ht
    exact ⟨tok, [], .name hk, hlit.trans String.ofList_toList, rfl⟩
  | true =>
    have hbetween := (spells_items h).between mark_lparen mark_rparen (by decide)
    rw [Expr.renderArgs, if_pos rfl, String.toList_append, String.toList_append,
      String.toList_append]
    refine ((Spells.name hname).append hbetween (by decide)).imp fun toks _ ht => ?_
    obtain ⟨_, _, rfl, ⟨tok, rfl, hk, hlit⟩, opening, inner, closing, rfl, hopen,
      hclose, es, hitems,
      hsame⟩ := ht
    exact ⟨tok, es, .call hk hopen hitems hclose, hlit.trans String.ofList_toList, hsame⟩

/-- The digits of a number. -/
theorem spells_number {n : Nat} (h : (n : Int) ≤ Int64.maxValue.toInt) :
    Spells limit (Nat.repr n).toList fun toks => ∃ tok, toks = [tok] ∧ tok.kind = .int ∧
      integer? tok.lit = some (Int64.ofInt n) := by
  have hdigits : ∀ d ∈ (Nat.repr n).toList, d.isDigit = true := by
    rw [Nat.toList_repr]
    exact fun d hd => Nat.isDigit_of_mem_toDigits (by decide) (by decide) hd
  have hne : (Nat.repr n).toList ≠ [] := by
    rw [Nat.toList_repr]
    exact Nat.toDigits_ne_nil
  refine (Spells.digits hne hdigits).imp fun toks _ ht => ?_
  obtain ⟨tok, rfl, hk, hlit⟩ := ht
  exact ⟨tok, rfl, hk, by rw [hlit, String.ofList_toList, integer?_repr h]⟩

theorem readAs_int {n : Int64} (hmin : Int64.minValue.toInt < n.toInt) :
    ReadAs limit literal (toString n.toInt).toList (.int tok n) := by
  have hmax : Int64.maxValue.toInt = 2 ^ 63 - 1 := by decide
  have hleast : Int64.minValue.toInt = -2 ^ 63 := by decide
  have hlt := n.toInt_lt
  cases hn : n.toInt with
  | ofNat k =>
    have hk : (k : Int) = n.toInt := hn.symm
    have hvalue : Int64.ofInt k = n := by rw [hk, n.ofInt_toInt]
    refine (spells_number (n := k) (by omega)).imp fun toks _ ht => ?_
    obtain ⟨tok, rfl, hk, hint⟩ := ht
    exact ⟨_, .primary (.int hk hint), by rw [hvalue]; rfl⟩
  | negSucc k =>
    -- the sign and the digits behind it come together again
    have hvalue : -Int64.ofInt (k + 1 : Nat) = n := by
      rw [← Int64.ofInt_neg, ← n.ofInt_toInt, hn]
      rfl
    have hchars : (toString (Int.negSucc k)).toList = '-' :: (Nat.repr (k + 1)).toList :=
      String.toList_append
    rw [hchars]
    refine ((spells_number (n := k + 1) (by omega)).mark mark_minus).imp fun toks _ ht => ?_
    obtain ⟨sign, -, rfl, hminus, tok, rfl, hk, hint⟩ := ht
    exact ⟨_, .negative hminus hk hint, by rw [negated, hvalue]; rfl⟩

theorem readAs_text {v : Text} (h : ∀ n ∈ v.points, IsScalar n) (levels : Nat) (o : ParseOptions) :
    ReadAs limit (Source.literals levels o) (Quote.quote v).toList (.text tok v) := by
  have hpos : ∀ n ∈ v.points, 0 ≤ n := by
    intro n hn
    have hscalar := h n hn
    unfold IsScalar at hscalar
    omega
  have hdecode (q : Position) : Escape.decodeAt q (Quote.body v.points) = .ok v := by
    rw [decodeAt_body hpos, (writable_eq_iff hpos).mpr h]
  rw [Quote.quote, String.toList_ofList]
  refine (Spells.quoted hpos).imp fun toks _ ht => ?_
  obtain ⟨tok, rfl, hk, hlit⟩ := ht
  exact ⟨_, .primary (.text hk (read_plain hlit (nested_body hpos) hdecode)), rfl⟩

/-- The written form of a tree is read as the tree. -/
theorem Expr.Printable.readAs (h : e.Printable) (levels : Nat) (o : ParseOptions) :
    ReadAs limit (Source.literals levels o) e.render.toList e := by
  -- what stands in front of a message or an index is a term already, and gets one more suffix
  induction h with
  | message hname hparens _ ih =>
    rw [render]
    refine (spells_head hname hparens ih).imp fun toks _ ht => ?_
    obtain ⟨tok, es, hhead, hlit, hsame⟩ := ht
    refine ⟨_, .primary hhead.primary, ?_⟩
    simp [called, bare, MessageHead.bare, hlit, hsame]
  | send hname _ hparens _ ihr ih =>
    rw [render, String.append_assoc, String.append_assoc, String.toList_append,
      String.toList_append]
    refine (ihr.append (spells_head hname hparens ih).blank (by decide)).imp fun toks _ ht => ?_
    obtain ⟨_, _, rfl, ⟨r, hterm, hreceiver⟩, tok, es, hhead, hlit, hsame⟩ := ht
    refine ⟨_, .suffix hterm hhead.suffix, ?_⟩
    simp [called, bare, MessageHead.bare, hlit, hsame, hreceiver]
  | int hmin => exact readAs_int hmin
  | text hscalar => exact readAs_text hscalar levels o
  | @concat _ parts _ ih =>
    have hbody : "nternal:concatenateText".toList.all isNamePart = true := by decide +kernel
    have hname : IsName concatenateName.toList :=
      ⟨'i', _, [], rfl, by decide +kernel, List.all_eq_true.mp hbody, List.forall_mem_nil _⟩
    have hparens : true = false → parts = [] := nofun
    rw [render]
    refine (spells_head hname hparens ih).imp fun toks _ ht => ?_
    obtain ⟨tok, es, hhead, hlit, hsame⟩ := ht
    refine ⟨_, .primary hhead.primary, ?_⟩
    simp [called, bare, MessageHead.bare, hlit, hsame]
  | index _ _ iht ihp =>
    have hbetween := ihp.alone.between mark_lbracket mark_rbracket (by decide)
    rw [render, String.append_assoc, String.append_assoc, String.toList_append,
      String.toList_append, String.toList_append]
    refine (iht.append hbetween (by decide)).imp fun toks _ ht => ?_
    obtain ⟨_, _, rfl, ⟨t, hterm, htarget⟩, opening, inner, closing, rfl, hopen, hclose, i, halone,
      hposition⟩ := ht
    refine ⟨_, .suffix hterm (.index hopen halone hclose), ?_⟩
    simp [called, bare, htarget, hposition]
  | list _ ih =>
    rw [render, String.append_assoc, String.toList_append, String.toList_append]
    refine ((spells_items ih).between mark_lbracket mark_rbracket (by decide)).imp fun toks _ ht =>
      ?_
    obtain ⟨opening, inner, closing, rfl, hopen, hclose, es, hitems, hsame⟩ := ht
    refine ⟨_, .primary (.list hopen hitems hclose), ?_⟩
    simp [called, bare, hsame]

end Written

/-! ### Programs -/

variable {o : ParseOptions} {prog : Program}

/-- A source that is cut into the tokens of a term is read as its expression. -/
theorem Term.parse {src : List Char} {toks : List Token} {last : Token}
    (h : Term (Source.literals src.length o) toks e) (hlast : last.kind = .eof)
    (htokens : tokens o.limit {} src = toks ++ [last]) :
    (Source.parse o src).toTraced.result = .ok [e] := by
  obtain ⟨hfail, hdone⟩ := h.run hlast
  rw [Source.parse, Source.parseAt, parseLevels_run, htokens, Parsed.toTraced,
    ParseState.parsed, hfail, hdone]

theorem Expr.Printable.parse (h : e.Printable) (o : ParseOptions) :
    ∃ e', (Source.parse o e.render.toList).toTraced.result = .ok [e'] ∧
    e'.bare = e.called.bare := by
  have hread : ReadAs o.limit (Source.literals e.render.toList.length o) e.render.toList e :=
    h.readAs _ o
  obtain ⟨toks, ⟨e', hterm, hsame⟩, -, htokens⟩ := hread {} [] stops_nil
  rw [List.append_nil, tokens_nil] at htokens
  exact ⟨e', hterm.parse rfl htokens, hsame⟩

/-- Line by line, the written form of a program is read as the program. -/
theorem parse_render (ho : o.embedded = none) (h : ∀ e ∈ prog, e.Printable) :
    ∃ prog', (Source.parse o (Program.render prog).toList).toTraced.result = .ok prog' ∧
      prog'.map Expr.bare = prog.map fun e => e.called.bare := by
  induction prog with
  | nil => exact ⟨[], parse_nil o, rfl⟩
  | cons e prog ih =>
    obtain ⟨he, hprog⟩ := List.forall_mem_cons.mp h
    obtain ⟨e', hparse, hsame⟩ := he.parse o
    cases prog with
    | nil => exact ⟨[e'], hparse, by simp [hsame]⟩
    | cons e₂ prog =>
      -- the other lines are a source of their own, and a line end joins two sources
      obtain ⟨rest, hrest, hsame'⟩ := ih hprog
      have hplaceless : o.Placeless := fun read hread => by
        rw [ho] at hread
        cases hread
      have hchars : (Program.render (e :: e₂ :: prog)).toList
          = e.render.toList ++ '\n' :: (Program.render (e₂ :: prog)).toList := by
        simp [Program.render, String.intercalate_cons_cons]
      obtain ⟨prog', hparse', hplaces⟩ := Traced.ok_of_outcome (parse_join hplaceless hparse hrest)
      rw [hchars]
      refine ⟨prog', hparse', ?_⟩
      rw [map_bare_of_unplaced hplaces, List.map_append, hsame']
      simp [hsame]

namespace Eval

open TextScript.Action

variable {sv : Services}

theorem evalAll_called (h : ∀ e ∈ es, (eval sv e).Alike (eval sv e.called)) :
    (evalAll sv es).Alike (evalAll sv (Expr.calledAll es)) := by
  induction es with
  | nil => exact alike_pure _
  | cons e es ih =>
    obtain ⟨he, hes⟩ := List.forall_mem_cons.mp h
    exact evalAll_cons_alike he (ih hes)

/-- Where nothing is assigned to, a literal with interpolations is evaluated like the call. -/
theorem eval_called (sv : Services) (h : e.Printable) : (eval sv e).Alike (eval sv e.called) := by
  induction h with
  | message _ _ _ ih =>
    have hlen {args : List Expr} : args.length = (Expr.calledAll args).length := by simp
    exact message_alike rfl hlen (evalAll_called ih)
  | send _ _ _ _ ihr ih => exact sent_alike rfl ihr (evalAll_called ih)
  | int => exact alike_pure _
  | text => exact alike_pure _
  | concat _ ih =>
    rw [Expr.called, eval_concatenate rfl]
    exact concat_alike (evalAll_called ih) _ _
  | index _ _ iht ihp => exact index_alike iht ihp
  | list _ ih => exact list_alike (evalAll_called ih)

end Eval

/-- A program without operators can be written down and read again.  The trees of an accepted
source that have no operators, and no surrogates in their texts, are written as a source that is
accepted too.  Its trees are the same but for tokens, except that every literal with
interpolations is the message `internal:concatenateText` with the parts of the literal as
arguments.  In whatever scopes, and with whatever services, it is evaluated to the same value or
to the same failure but for its place, and leaves the same scopes. -/
theorem written_program_read_back {src : List Char} (ho : o.embedded = none)
    (h : (Source.parse o src).toTraced.result = .ok prog)
    (hfree : ∀ e ∈ prog, e.operatorFree = true) :
    ∃ prog', (Source.parse o (Program.render prog).toList).toTraced.result = .ok prog' ∧
      (prog'.map Expr.bare = prog.map fun e => e.called.bare) ∧
      ∀ (sv : Services) (s : EvalState),
        Action.Same (Eval.evalProgram sv prog' s) (Eval.evalProgram sv prog s) := by
  have hprint : ∀ e ∈ prog, e.Printable := fun e he =>
    parse_induction (printable_closed src) ho h e he (hfree e he)
  obtain ⟨prog', hparse, hsame⟩ := parse_render ho hprint
  refine ⟨prog', hparse, hsame, fun sv s => ?_⟩
  have hbare : prog'.map Expr.bare = (prog.map Expr.called).map Expr.bare := by
    rw [hsame, List.map_map]
    rfl
  have hcalled : List.Forall₂ (fun e e' => (Eval.eval sv e).Alike (Eval.eval sv e')) prog
      (prog.map Expr.called) :=
    List.forall₂_map_right_iff.mpr
      (List.forall₂_same.mpr fun e he => Eval.eval_called sv (hprint e he))
  exact (Eval.evalFrom_bare hbare .nil).trans (Eval.evalFrom_alike_of hcalled .nil).symm s s rfl

/-- A negative integer, messages with and without arguments, an index, and a literal inside of a
literal. -/
theorem written_program_read_back_nested :
    let src := "[-7, x] first(1,) next\n\"a#\x7b f(\"\\#\x7b#\x7bb!\x7d\") [0] \x7d\"".toList
    let prog := (Source.parse {} src).program
    (Source.parse {} src).toTraced.result = .ok prog ∧ (∀ e ∈ prog, e.operatorFree = true) ∧
      Program.render prog = "[-7, x] first(1) next\ninternal:concatenateText(\"a\", " ++
        "f(internal:concatenateText(\"\\#\x7b\", b!, \"\"))[0], \"\")" ∧
      ∃ prog', (Source.parse {} (Program.render prog).toList).toTraced.result = .ok prog' ∧
        (prog'.map Expr.bare = prog.map fun e => e.called.bare) ∧
        ∀ (sv : Services) (s : EvalState),
          Action.Same (Eval.evalProgram sv prog' s) (Eval.evalProgram sv prog s) := by
  intro src prog
  have hfail : (Source.parse {} src).failure = none := by decide +kernel
  have hparse : (Source.parse {} src).toTraced.result = .ok prog := by rw [Parsed.toTraced, hfail]
  have hfree : ∀ e ∈ prog, e.operatorFree = true := by decide +kernel
  exact ⟨hparse, hfree, by decide +kernel, written_program_read_back rfl hparse hfree⟩

end TextScript
