/-
TextScript/Proofs/Trees.lean

Induction over the trees of a source.

The parser builds trees in a few ways, and for each of them it takes a token of the source.
`Expr.Closed T Q` says that all these ways keep the property `Q` of trees, if the tokens are of
the kind `T`.  Then whatever is open in the parser is made of trees with the property, and every
move keeps it so (`Moves.holds`).  A literal is such a tree as well: the code in it is a source
one level down, whose tokens are found at their places in the whole source (`TokenIn`).  So a
property that is closed in this sense holds of all trees of an accepted source
(`parse_induction`), and nothing about the parser has to be known to use this.
-/
import TextScript.Proofs.Moves
import TextScript.Proofs.Places

namespace TextScript

open Lexer ParseState

/-- `TokenIn src tok`: the token is found in the source or in code embedded in it, and its place
is that of the characters before it in the whole source. -/
def TokenIn (src : List Char) (tok : Token) : Prop :=
  ∃ lead cs pre, SourceAt src lead cs ∧ Spotted lead cs pre tok ∧ tok.place = behind pre

/-- `Woven P parts`: the parts are texts and expressions of a kind in turn, beginning and ending
with a text. -/
inductive Woven (P : Expr → Prop) : List Expr → Prop
  | last (tok : Token) (v : Text) : Woven P [.text tok v]
  | block {tok : Token} {v : Text} {e : Expr} {parts : List Expr} : P e → Woven P parts →
      Woven P (.text tok v :: e :: parts)

section Woven

variable {P : Expr → Prop} {parts : List Expr}

/-- Texts and codes alternate, beginning and ending with a text. -/
theorem Woven.odd (h : Woven P parts) : parts.length % 2 = 1 := by
  induction h with
  | last => rfl
  | block _ _ ih =>
    simp only [List.length_cons]
    omega

theorem Woven.text_of_even (h : Woven P parts) (k : Nat) (e : Expr) (hk : parts[2 * k]? = some e) :
    ∃ tok v, e = .text tok v := by
  induction h generalizing k with
  | last tok v =>
    cases k with
    | zero => exact ⟨tok, v, (Option.some.inj hk).symm⟩
    | succ k => cases hk
  | @block tok v _ _ _ _ ih =>
    cases k with
    | zero => exact ⟨tok, v, (Option.some.inj hk).symm⟩
    | succ k => exact ih k (by simpa [Nat.mul_succ] using hk)

end Woven

/-- `Closed T Q`: each way in which the parser builds a tree keeps the property `Q`, if its token
is one of `T`. -/
structure Expr.Closed (T : Token → Prop) (Q : Expr → Prop) : Prop where
  message : ∀ {receiver : Option Expr} {tok : Token} {parens : Bool} {args : List Expr}, T tok →
    tok.kind = .ident → (∀ e ∈ receiver, Q e) → (parens = false → args = []) → (∀ e ∈ args, Q e) →
    Q (Frame.message receiver tok parens args)
  int : ∀ {tok : Token} {n : Int64}, T tok → tok.kind = .int → integer? tok.lit = some n →
    Q (.int tok n)
  /-- A number with the sign right before it. -/
  folded : ∀ {sign tok : Token} {n : Int64}, T sign → T tok → tok.kind = .int →
    integer? tok.lit = some n → Q (negated sign tok n)
  /-- A literal without interpolations, or a segment of one that has some. -/
  text : ∀ {tok : Token} {p : Position} {seg : List Char} {v : Text}, T tok → tok.kind = .text →
    Escape.decodeAt p seg = .ok v → Q (.text tok v)
  concat : ∀ {tok : Token} {parts : List Expr}, T tok → tok.kind = .text → 3 ≤ parts.length →
    Woven Q parts → (∀ e ∈ parts, Q e) → Q (.concat tok parts)
  unary : ∀ {tok : Token} {op : UnaryOp} {operand : Expr}, T tok → tok.kind.unaryOp? = some op →
    Q operand → Q (.unary tok op operand)
  binary : ∀ {tok : Token} {left right : Expr} {op : BinaryOp}, T tok →
    tok.kind.binaryOp? = some op →
    (op = .assign → left.isBareName = true) → Q left → Q right → Q (.binary tok left op right)
  index : ∀ {tok : Token} {target position : Expr}, T tok → tok.kind = .lbracket → Q target →
    Q position → Q (.index tok target position)
  list : ∀ {tok : Token} {items : List Expr}, T tok → tok.kind = .lbracket → (∀ e ∈ items, Q e) →
    Q (.list tok items)

variable {T : Token → Prop} {Q : Expr → Prop}

/-! ### What is open -/

/-- A frame whose trees have the property, and whose token is one of `T`. -/
def Frame.Holds (T : Token → Prop) (Q : Expr → Prop) : Frame → Prop
  | .unary tok op => T tok ∧ tok.kind.unaryOp? = some op
  | .binary tok left op =>
    T tok ∧ tok.kind.binaryOp? = some op ∧ (op = .assign → left.isBareName = true) ∧ Q left
  | .group => True
  | .index tok target => T tok ∧ tok.kind = .lbracket ∧ Q target
  | .list tok items => T tok ∧ tok.kind = .lbracket ∧ ∀ e ∈ items, Q e
  | .args receiver tok items =>
    T tok ∧ tok.kind = .ident ∧ (∀ e ∈ receiver, Q e) ∧ ∀ e ∈ items, Q e

/-- What has just been read is a tree with the property, or the name of a message to such a tree. -/
def Stage.Holds (T : Token → Prop) (Q : Expr → Prop) : Stage → Prop
  | .start => True
  | .name receiver tok => T tok ∧ tok.kind = .ident ∧ ∀ e ∈ receiver, Q e
  | .operand e => Q e
  | .failed _ => True

variable {literal : Token → Traced Expr} {tok : Token} {c e whole : Expr} {top more : Frame}
variable {stack own : List Frame}

theorem forall_mem_items {items : List Expr} {last : Option Expr} (hitems : ∀ e ∈ items, Q e)
    (hlast : ∀ e ∈ last, Q e) : ∀ e ∈ items ++ last.toList, Q e :=
  List.forall_mem_append.mpr ⟨hitems, fun e he => hlast e (Option.mem_toList.mp he)⟩

/-- What a frame is closed to has the property if the frame and its last part have it. -/
theorem Frame.Holds.closed {last : Option Expr} (hq : Expr.Closed T Q) (h : top.Holds T Q)
    (hlast : ∀ e ∈ last, Q e) (hwhole : top.closed? last = some whole) : Q whole := by
  cases top with
  | unary => cases hwhole
  | binary => cases hwhole
  | group =>
    cases last with
    | none => cases hwhole
    | some e => cases hwhole; exact hlast _ rfl
  | index tok target =>
    cases last with
    | none => cases hwhole
    | some e =>
      cases hwhole
      obtain ⟨htok, hk, htarget⟩ := h
      exact hq.index htok hk htarget (hlast _ rfl)
  | list tok items =>
    cases hwhole
    obtain ⟨htok, hk, hitems⟩ := h
    exact hq.list htok hk (forall_mem_items hitems hlast)
  | args receiver tok items =>
    cases hwhole
    obtain ⟨htok, hk, hreceiver, hitems⟩ := h
    exact hq.message htok hk hreceiver nofun (forall_mem_items hitems hlast)

/-- One more part keeps a frame as it should be. -/
theorem Frame.Holds.add (h : top.Holds T Q) (he : Q e) (hmore : top.add? e = some more) :
    more.Holds T Q := by
  have hlast : ∀ x ∈ some e, Q x := fun x hx => Option.some.inj hx ▸ he
  cases top with
  | list tok items =>
    cases hmore
    obtain ⟨htok, hk, hitems⟩ := h
    exact ⟨htok, hk, forall_mem_items hitems hlast⟩
  | args receiver tok items =>
    cases hmore
    obtain ⟨htok, hk, hreceiver, hitems⟩ := h
    exact ⟨htok, hk, hreceiver, forall_mem_items hitems hlast⟩
  | _ => cases hmore

namespace ParseState

variable {s s' : ParseState} {toks : List Token}

/-- Closing operators keeps the property of what is on the stack. -/
theorem reduce_holds (hq : Expr.Closed T Q) {k : Strength} (h : reduce k stack c = (own, e))
    (hs : ∀ f ∈ stack, f.Holds T Q) (hc : Q c) : (∀ f ∈ own, f.Holds T Q) ∧ Q e := by
  refine reduce_keeps (P := fun stack c => (∀ f ∈ stack, f.Holds T Q) ∧ Q c) ?_ ?_ h ⟨hs, hc⟩
  · rintro tok op rest c ⟨hs, hc⟩
    obtain ⟨⟨htok, hop⟩, hrest⟩ := List.forall_mem_cons.mp hs
    exact ⟨hrest, hq.unary htok hop hc⟩
  · rintro tok left op rest c ⟨hs, hc⟩
    obtain ⟨⟨htok, hop, hassign, hleft⟩, hrest⟩ := List.forall_mem_cons.mp hs
    exact ⟨hrest, hq.binary htok hop hassign hleft hc⟩

/-- A state that is made of trees with the property. -/
structure Holds (T : Token → Prop) (Q : Expr → Prop) (s : ParseState) : Prop where
  stack : ∀ f ∈ s.stack, f.Holds T Q
  stage : s.stage.Holds T Q
  done : ∀ e ∈ s.done, Q e

/-- What the parser holds has the property. -/
theorem Holds.held (hq : Expr.Closed T Q) (h : s.Holds T Q)
    (hc : s.stage.held? = some c) : Q c := by
  have hstage := h.stage
  cases hs : s.stage with
  | start => rw [hs] at hc; cases hc
  | failed f => rw [hs] at hc; cases hc
  | operand e =>
    rw [hs] at hc hstage
    cases hc
    exact hstage
  | name receiver tok =>
    rw [hs] at hc hstage
    cases hc
    obtain ⟨htok, hk, hreceiver⟩ := hstage
    exact hq.message htok hk hreceiver (fun _ => rfl) (List.forall_mem_nil _)

theorem Holds.push (h : s.Holds T Q) {f : Frame} (hf : f.Holds T Q) : (s.push f).Holds T Q :=
  ⟨List.forall_mem_cons.mpr ⟨hf, h.stack⟩, trivial, h.done⟩

theorem Holds.operand (h : s.Holds T Q) (hstack : ∀ f ∈ stack, f.Holds T Q) (he : Q e) :
    (s.operand stack e).Holds T Q :=
  ⟨hstack, he, h.done⟩

/-- Every move keeps the property, if literals have it. -/
theorem Moves.holds (hq : Expr.Closed T Q) (hmove : Moves literal tok s s') (htok : T tok)
    (hlit : tok.kind = .text → ∀ e, (literal tok).result = .ok e → Q e) (h : s.Holds T Q) :
    s'.Holds T Q := by
  -- a move either puts something on the stack that its token answers for, or takes down what is
  -- held already, by `reduce_holds`
  cases hmove with
  | newline => exact h
  | idle => exact h
  | name _ hk => exact ⟨h.stack, ⟨htok, hk, fun _ he => by cases he⟩, h.done⟩
  | integer _ hk hn => exact h.operand h.stack (hq.int htok hk hn)
  | folded _ hk hn hs =>
    have hstack := h.stack
    rw [hs] at hstack
    obtain ⟨⟨hsign, -⟩, hrest⟩ := List.forall_mem_cons.mp hstack
    exact h.operand hrest (hq.folded hsign htok hk hn)
  | text _ hk hres => exact ⟨h.stack, hlit hk _ hres, h.done⟩
  | sign _ hop => exact h.push ⟨htok, hop⟩
  | group => exact h.push trivial
  | list _ hk => exact h.push ⟨htok, hk, List.forall_mem_nil _⟩
  | empty _ hs _ hwhole =>
    have hstack := h.stack
    rw [hs] at hstack
    obtain ⟨htop, hrest⟩ := List.forall_mem_cons.mp hstack
    exact h.operand hrest (htop.closed hq (fun _ he => by cases he) hwhole)
  | arguments hs =>
    have hstage := h.stage
    rw [hs] at hstage
    obtain ⟨hname, hk, hreceiver⟩ := hstage
    exact h.push ⟨hname, hk, hreceiver, List.forall_mem_nil _⟩
  | binary hheld hop hred hassign =>
    obtain ⟨hown, hleft⟩ := reduce_holds hq hred h.stack (h.held hq hheld)
    exact ⟨List.forall_mem_cons.mpr ⟨⟨htok, hop, hassign, hleft⟩, hown⟩, trivial, h.done⟩
  | send hheld hk hred =>
    obtain ⟨hown, hreceiver⟩ := reduce_holds hq hred h.stack (h.held hq hheld)
    exact ⟨hown, ⟨htok, hk, fun e he => Option.some.inj he ▸ hreceiver⟩, h.done⟩
  | index hheld hk hred =>
    obtain ⟨hown, htarget⟩ := reduce_holds hq hred h.stack (h.held hq hheld)
    exact ⟨List.forall_mem_cons.mpr ⟨⟨htok, hk, htarget⟩, hown⟩, trivial, h.done⟩
  | complete hheld _ hred =>
    obtain ⟨hown, he⟩ := reduce_holds hq hred h.stack (h.held hq hheld)
    exact ⟨hown, trivial, List.forall_mem_append.mpr ⟨h.done, List.forall_mem_singleton.mpr he⟩⟩
  | comma hheld _ hred hadd =>
    obtain ⟨hown, he⟩ := reduce_holds hq hred h.stack (h.held hq hheld)
    obtain ⟨htop, hrest⟩ := List.forall_mem_cons.mp hown
    exact ⟨List.forall_mem_cons.mpr ⟨htop.add he hadd, hrest⟩, trivial, h.done⟩
  | close hheld _ hred hwhole =>
    obtain ⟨hown, he⟩ := reduce_holds hq hred h.stack (h.held hq hheld)
    obtain ⟨htop, hrest⟩ := List.forall_mem_cons.mp hown
    exact h.operand hrest (htop.closed hq (fun x hx => Option.some.inj hx ▸ he) hwhole)

/-- The parser keeps the property from token to token. -/
theorem run_holds (hq : Expr.Closed T Q) (htoks : ∀ tok ∈ toks, T tok)
    (hlit : ∀ tok ∈ toks, tok.kind = .text → ∀ e, (literal tok).result = .ok e → Q e)
    (hok : ¬(run literal toks).HasFailed) : (run literal toks).Holds T Q := by
  refine run_moves (P := fun seen s => (∀ tok ∈ seen, tok ∈ toks) → s.Holds T Q) ?_ ?_ toks hok
    fun tok htok => htok
  · exact fun _ => ⟨List.forall_mem_nil _, trivial, List.forall_mem_nil _⟩
  · intro seen tok s s' hmove hs hseen
    obtain ⟨hbefore, hnow⟩ := List.forall_mem_append.mp hseen
    have hmem := List.forall_mem_singleton.mp hnow
    exact hmove.holds hq (htoks tok hmem) (hlit tok hmem) (hs hbefore)

end ParseState

/-! ### Literals -/

variable {src quote front cs lead : List Char} {parts : List Expr} {reader : Option CodeReader}
variable {limit : Int} {o : ParseOptions} {prog : Program}

/-- What the reader of embedded code gives for code of the source has the property. -/
def ReaderHolds (src : List Char) (Q : Expr → Prop) (reader : Option CodeReader) : Prop :=
  ∀ read, reader = some read → ∀ lead code e, SourceAt src lead code →
    (read (String.ofList code) (behind lead)).result = .ok e → Q e

/-- What code is read as has the property. -/
theorem readCode_holds {code : List Char} (hq : Expr.Closed T Q) (hr : ReaderHolds src Q reader)
    (htok : T tok) (hk : tok.kind = .text) (h : SourceAt src lead code)
    (he : (Interpolation.readCode reader tok (String.ofList code) (behind lead)).result = .ok e) :
    Q e := by
  cases hblank : Text.isBlankString (String.ofList code) with
  | true =>
    unfold Interpolation.readCode at he
    rw [if_pos hblank] at he
    cases he
    have hempty : Escape.decodeAt (behind lead) [] = .ok .empty := by
      rw [Escape.decodeAt, Escape.decodePoints]
      rfl
    exact hq.text htok hk hempty
  | false =>
    obtain ⟨read, hsome, hres⟩ := readCode_ok hblank he
    exact hr read hsome lead code e h hres

/-- The parts of a body, or of what is left of it behind its front, are texts and what the codes
are read as, and they have the property. -/
theorem readParts_holds (limit : Int) (hq : Expr.Closed T Q) (hr : ReaderHolds src Q reader)
    (htok : T tok) (h : LiteralAt src quote tok) (hlit : tok.lit.toList = front ++ cs)
    (hfront : Front front)
    (hparts : (Interpolation.readParts reader limit tok (behind (quote ++ '"' :: front)) cs).result
      = .ok parts) : Woven Q parts ∧ ∀ e ∈ parts, Q e := by
  have hk : tok.kind = .text := by
    obtain ⟨_, _, _, _, hk⟩ := h
    exact hk
  induction cs using body_induction limit generalizing front parts with
  | last seg hsize =>
    rw [readParts_segment hsize, Traced.result_andThen, bind_eq_ok] at hparts
    obtain ⟨v, hv, hparts⟩ := hparts
    cases hparts
    exact ⟨.last tok v, List.forall_mem_singleton.mpr (hq.text htok hk hv)⟩
  | stuck seg rest n why hsize hscan =>
    rw [readParts_stuck hsize hscan, Traced.result_andThen, bind_eq_ok] at hparts
    obtain ⟨v, -, hparts⟩ := hparts
    cases hparts
  | block seg code rest hsize hscan ih =>
    rw [readParts_closed hsize hscan] at hparts
    simp only [Traced.result_andThen, bind_eq_ok] at hparts
    obtain ⟨v, hv, e, he, after, hafter, hparts⟩ := hparts
    cases hparts
    have hs := isSegment_of_decodeAt hsize hv
    have hc := isCode_of_closed hscan
    -- the places that the reader counts on to are those of the whole source
    have hplace : (behind (quote ++ '"' :: front)).advance (seg ++ ['#', '{'])
        = behind (quote ++ '"' :: (front ++ (seg ++ ['#', '{']))) := by simp
    have hnext : (behind (quote ++ '"' :: (front ++ (seg ++ ['#', '{'])))).advance (code ++ ['}'])
        = behind (quote ++ '"' :: (front ++ (seg ++ '#' :: '{' :: (code ++ ['}'])))) := by simp
    rw [hplace] at he hafter
    rw [hnext] at hafter
    obtain ⟨hwoven, hall⟩ := ih (by rw [hlit]; simp) (hfront.block hs hc) hafter
    have hcode := readCode_holds hq hr htok hk (h.sourceAt hlit hfront hs hc) he
    have htext : Q (.text tok v) := hq.text htok hk hv
    exact ⟨.block hcode hwoven,
      List.forall_mem_cons.mpr ⟨htext, List.forall_mem_cons.mpr ⟨hcode, hall⟩⟩⟩

/-- So has what a literal is read as. -/
theorem read_holds (hq : Expr.Closed T Q) (hr : ReaderHolds src Q reader) (htok : T tok)
    (h : LiteralAt src quote tok) (hplace : tok.place = behind quote)
    (he : (Interpolation.read reader limit tok).result = .ok e) : Q e := by
  have hnext : tok.place.next = behind (quote ++ ['"']) := by
    rw [hplace, ← behind_advance]
    rfl
  rw [Interpolation.read, hnext, Traced.result_andThen, bind_eq_ok] at he
  obtain ⟨parts, hparts, he⟩ := he
  obtain ⟨hwoven, hall⟩ :=
    readParts_holds limit hq hr htok h (List.nil_append _).symm front_nil hparts
  split at he
  · cases he
    exact hall _ List.mem_cons_self
  · next hmore =>
    cases he
    obtain ⟨_, _, _, _, hk⟩ := h
    -- texts and codes in turn, with a text at both ends, and not one text alone
    have hthree : 3 ≤ parts.length := by
      cases hwoven with
      | last tok v => exact absurd rfl (hmore _)
      | block _ hrest =>
        have hodd := hrest.odd
        simp only [List.length_cons]
        omega
    exact hq.concat htok hk hthree hwoven hall

/-! ### Sources -/

/-- What every way of building keeps holds of the trees of a source, and of code embedded in one. -/
theorem parseLevels_holds (levels : Nat) (hq : Expr.Closed (TokenIn src) Q) (ho : o.embedded = none)
    (h : SourceAt src lead cs)
    (hprog : (Source.parseLevels levels o (behind lead) cs).toTraced.result = .ok prog) :
    ∀ e ∈ prog, Q e := by
  induction levels using Nat.strongRecOn generalizing o lead cs prog with
  | ind levels ih =>
    rw [parseLevels_run] at hprog
    obtain ⟨hok, rfl⟩ := parsed_ok hprog
    obtain ⟨spots, hlays, htokens, hplaces⟩ := tokens_spots o.limit lead cs
    have hreader : ReaderHolds src Q (o.embedded.or (Source.levelReader levels o)) := by
      intro read hread lead' code e hcode he
      rcases reader_cases hread with hother | ⟨-, fewer, rfl, hself⟩
      · rw [ho] at hother
        cases hother
      · -- the code is a source of its own, one level down
        rw [hself, String.toList_ofList] at he
        have hinner : o.inner.embedded = none := ho
        exact ih fewer (Nat.lt_succ_self fewer) hinner hcode (single_eq_ok_iff.mp he) e
          (List.mem_singleton_self e)
    have hspot : ∀ tok ∈ tokens o.limit (behind lead) cs, ∃ pre, (pre, tok) ∈ spots := by
      intro tok htok
      rw [← htokens] at htok
      obtain ⟨⟨pre, tok⟩, hmem, rfl⟩ := List.mem_map.mp htok
      exact ⟨pre, hmem⟩
    have htoks : ∀ tok ∈ tokens o.limit (behind lead) cs, TokenIn src tok := by
      intro tok htok
      obtain ⟨pre, hmem⟩ := hspot tok htok
      exact ⟨lead, cs, pre, h, ⟨o.limit, spots, hlays, htokens, hmem⟩, hplaces _ hmem⟩
    refine (run_holds hq htoks (fun tok htok hk e he => ?_) hok).done
    obtain ⟨pre, hmem⟩ := hspot tok htok
    exact read_holds hq hreader (htoks tok htok) (literalAt_of_tokens h hlays htokens _ hmem hk)
      (hplaces _ hmem) he

/-- What every way of building a tree keeps holds of all trees of an accepted source. -/
theorem parse_induction (hq : Expr.Closed (TokenIn src) Q) (ho : o.embedded = none)
    (h : (Source.parse o src).toTraced.result = .ok prog) : ∀ e ∈ prog, Q e :=
  parseLevels_holds src.length hq ho SourceAt.whole h

end TextScript
