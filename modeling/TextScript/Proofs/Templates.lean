/-
TextScript/Proofs/Templates.lean

The grammar of format templates.

A template is cut from the left into items.  `Begins src d rest` lists the forms of an item: a
plain code point, a block up to the first `%]` after its bracket, an insertion, and what is copied
because it is neither: the opening of a block without an end, `%*` or `%:` with the code point
after it, and a percent sign with a minus sign, digits and the code point after them.

The reader of directives follows the grammar exactly (`begins_iff`), so there is one item at the
start of every template and no other.  Statements about templates are proved by
`template_induction`: item by item, with the body of a block as a template of its own.
-/
import TextScript.Format.Directive

namespace TextScript

open Directive

/-! ### Items -/

/-- The opening of a block. -/
inductive Opening : BlockMode → List Int → Prop
  | each : Opening .each [percent, openBracket]
  | splat : Opening .splat [percent, asterisk, openBracket]
  | pairs : Opening .pairs [percent, colon, openBracket]

/-- The end of a block. -/
def ending : List Int := [percent, closeBracket]

/-- The start of an insertion: a percent sign, with a minus sign if the padding goes after the
text. -/
def flag (left : Bool) : List Int :=
  if left then [percent, minus] else [percent]

/-- What makes a percent sign directly before it something other than an insertion without a minus
sign. -/
def marks : List Int := [asterisk, colon, openBracket, minus]

/-- `Begins src d rest`: the template `src` begins with the item `d` and goes on with `rest`. -/
inductive Begins : List Int → Directive → List Int → Prop
  | plain {c : Int} {rest : List Int} : c ≠ percent → Begins (c :: rest) (.copy [c]) rest
  | block {mode : BlockMode} {w body rest : List Int} :
      Opening mode w → ¬ending <:+: body →
      Begins (w ++ (body ++ (ending ++ rest))) (.block mode w body) rest
  | unended {mode : BlockMode} {w rest : List Int} :
      Opening mode w → ¬ending <:+: rest → Begins (w ++ rest) (.copy w) rest
  | marked {mark : Int} {rest : List Int} :
      mark = asterisk ∨ mark = colon → rest.head? ≠ some openBracket →
      Begins (percent :: mark :: rest) (.copy (percent :: mark :: rest.take 1)) (rest.drop 1)
  | insert {digits rest : List Int} (left : Bool) :
      (∀ d ∈ digits, isDigit d = true) →
      Begins (flag left ++ (digits ++ letter :: rest))
        (.insert (flag left ++ digits ++ [letter]) digits left) rest
  | spoiled {digits rest : List Int} (left : Bool) :
      (∀ d ∈ digits, isDigit d = true) →
      (∀ c ∈ rest.head?, isDigit c = false ∧ c ≠ letter) →
      (left = false → digits = [] → ∀ c ∈ rest.head?, c ∉ marks) →
      Begins (flag left ++ (digits ++ rest)) (.copy (flag left ++ digits ++ rest.take 1))
        (rest.drop 1)

variable {mode : BlockMode} {w src body rest cs digits : List Int} {c : Int} {d : Directive}
variable {n : Nat}

/-! ### Where a body ends -/

theorem not_ending_nil : ¬ending <:+: [] := by
  intro h
  exact absurd (List.eq_nil_of_infix_nil h) (by decide)

theorem ending_infix_cons :
    ending <:+: c :: cs ↔ (c = percent ∧ cs.head? = some closeBracket) ∨ ending <:+: cs := by
  rw [List.infix_cons_iff]
  refine or_congr ?_ Iff.rfl
  constructor
  · rintro ⟨t, ht⟩
    obtain ⟨rfl, rfl⟩ := List.cons.inj ht
    exact ⟨rfl, rfl⟩
  · rintro ⟨rfl, hc⟩
    obtain ⟨t, rfl⟩ := List.head?_eq_some_iff.mp hc
    exact ⟨t, rfl⟩

theorem bodySize?_eq_none (h : ¬ending <:+: cs) : bodySize? cs = none := by
  induction cs with
  | nil => rfl
  | cons c cs ih =>
    rw [ending_infix_cons, not_or] at h
    rw [bodySize?, if_neg h.1, ih h.2]
    rfl

/-- A body without an end in it stops at the end behind it. -/
theorem bodySize?_append (h : ¬ending <:+: body) :
    bodySize? (body ++ (ending ++ rest)) = some body.length := by
  induction body with
  | nil => rfl
  | cons c body ih =>
    rw [ending_infix_cons, not_or] at h
    -- the end behind the body begins with a percent sign, so it completes none that began in it
    have hc : ¬(c = percent ∧ (body ++ (ending ++ rest)).head? = some closeBracket) := by
      rintro ⟨rfl, hc⟩
      cases body with
      | nil => exact absurd (Option.some.inj hc) (by decide)
      | cons d body => exact h.1 ⟨rfl, hc⟩
    rw [List.cons_append, bodySize?, if_neg hc, ih h.2]
    rfl

/-- Either there is no end, or a first one. -/
theorem ending_cases (cs : List Int) :
    ¬ending <:+: cs ∨ ∃ body rest, cs = body ++ (ending ++ rest) ∧ ¬ending <:+: body := by
  induction cs with
  | nil => exact .inl not_ending_nil
  | cons c cs ih =>
    by_cases hc : c = percent ∧ cs.head? = some closeBracket
    · obtain ⟨rfl, hh⟩ := hc
      obtain ⟨rest, rfl⟩ := List.head?_eq_some_iff.mp hh
      exact .inr ⟨[], rest, rfl, not_ending_nil⟩
    rcases ih with hno | ⟨body, rest, rfl, hbody⟩
    · refine .inl fun h => ?_
      rcases ending_infix_cons.mp h with h | h
      · exact hc h
      · exact hno h
    · refine .inr ⟨c :: body, rest, rfl, fun h => ?_⟩
      rcases ending_infix_cons.mp h with ⟨hp, hh⟩ | h
      · obtain ⟨more, rfl⟩ := List.head?_eq_some_iff.mp hh
        exact hc ⟨hp, rfl⟩
      · exact hbody h

/-! ### The reader of directives follows the grammar -/

/-- The reader finds the item `d` at the start of `src` and goes on with `rest`. -/
def ReadsAs (src : List Int) (d : Directive) (rest : List Int) : Prop :=
  ∃ c cs, src = c :: cs ∧ (Directive.read c cs).1 = d ∧ src.drop (Directive.read c cs).2 = rest

/-- Only one item is found. -/
theorem ReadsAs.unique {d' : Directive} {rest' : List Int} (h : ReadsAs src d rest)
    (h' : ReadsAs src d' rest') : d = d' ∧ rest = rest' := by
  obtain ⟨c, cs, rfl, rfl, rfl⟩ := h
  obtain ⟨c', cs', heq, rfl, rfl⟩ := h'
  obtain ⟨rfl, rfl⟩ := List.cons.inj heq
  exact ⟨rfl, rfl⟩

theorem readsAs_of_eq {item : Directive × Nat}
    (h : ∃ c ds, src = c :: ds ∧ Directive.read c ds = item) (hd : item.1 = d)
    (hdrop : src.drop item.2 = rest) : ReadsAs src d rest := by
  obtain ⟨c, ds, rfl, rfl⟩ := h
  exact ⟨c, ds, rfl, hd, hdrop⟩

/-- After its opening, a block is read by the reader of blocks. -/
theorem read_opening (h : Opening mode w) (cs : List Int) :
    ∃ c ds, w ++ cs = c :: ds ∧ Directive.read c ds = readBlock mode w cs := by
  cases h <;> exact ⟨_, _, rfl, rfl⟩

/-- A percent sign that begins no block and has no mark is read as an insertion. -/
theorem read_flag (left : Bool)
    (hcs : left = false → ∀ c ∈ cs.head?, c ∉ marks) :
    ∃ c ds, flag left ++ cs = c :: ds ∧ Directive.read c ds = readInsert (flag left) left cs := by
  cases left with
  | true => exact ⟨percent, minus :: cs, rfl, rfl⟩
  | false =>
    refine ⟨percent, cs, rfl, ?_⟩
    cases cs with
    | nil => rfl
    | cons c ds =>
      have hc := hcs rfl c rfl
      simp only [marks, List.mem_cons, List.not_mem_nil, or_false, not_or] at hc
      obtain ⟨h1, h2, h3, h4⟩ := hc
      simp only [Directive.read, ne_eq, not_true_eq_false, if_false, h1, h2, h3, h4]
      rfl

theorem digit_not_mark (h : isDigit c = true) : c ∉ marks := by
  simp only [isDigit, Bool.and_eq_true, decide_eq_true_eq] at h
  simp only [marks, asterisk, colon, openBracket, minus, List.mem_cons, List.not_mem_nil, or_false]
  omega

/-- Digits in front of a mark keep it from being one. -/
theorem head_not_mark (hd : ∀ d ∈ digits, isDigit d = true)
    (hr : digits = [] → ∀ c ∈ rest.head?, c ∉ marks) : ∀ c ∈ (digits ++ rest).head?, c ∉ marks := by
  cases digits with
  | nil => exact hr rfl
  | cons d ds =>
    rintro c ⟨⟩
    exact digit_not_mark (hd d List.mem_cons_self)

theorem takeWhile_digits (hd : ∀ d ∈ digits, isDigit d = true)
    (hr : ∀ c ∈ rest.head?, isDigit c = false) : (digits ++ rest).takeWhile isDigit = digits := by
  rw [List.takeWhile_append_of_pos hd]
  have hstop : rest.takeWhile isDigit = [] := by
    cases rest with
    | nil => rfl
    | cons c cs => rw [List.takeWhile_cons, if_neg (by simp [hr c rfl])]
  rw [hstop, List.append_nil]

/-- What stands behind the digits decides between an insertion and a copy. -/
theorem readInsert_eq (opening : List Int) (left : Bool) (hd : ∀ d ∈ digits, isDigit d = true)
    (hr : ∀ c ∈ rest.head?, isDigit c = false) :
    readInsert opening left (digits ++ rest) =
      (if rest.head? = some letter then .insert (opening ++ digits ++ [letter]) digits left
        else .copy (opening ++ digits ++ rest.take 1),
        (opening ++ digits ++ rest.take 1).length) := by
  simp only [readInsert, takeWhile_digits hd hr, List.drop_left]
  cases rest with
  | nil => simp
  | cons c cs =>
    by_cases hc : c = letter
    · simp [hc]
    · simp [hc]

theorem drop_taken (opening digits rest : List Int) :
    (opening ++ (digits ++ rest)).drop (opening ++ digits ++ rest.take 1).length = rest.drop 1 := by
  rw [← List.append_assoc, List.length_append, List.drop_append]
  cases rest <;> simp

/-- The reader finds every item of the grammar. -/
theorem Begins.readsAs (h : Begins src d rest) : ReadsAs src d rest := by
  cases h with
  | @plain c _ hc =>
    have hread : Directive.read c rest = (.copy [c], 1) := by
      unfold Directive.read
      exact if_pos hc
    exact readsAs_of_eq ⟨c, rest, rfl, hread⟩ rfl rfl
  | @block mode w body _ hw hbody =>
    -- the two code points at the end of the block are dropped with it
    have hdrop : (w ++ (body ++ (ending ++ rest))).drop (w.length + body.length + 2) = rest := by
      have hlen : w.length + body.length + 2 = (w ++ (body ++ ending)).length := by
        simp [ending, Nat.add_assoc]
      have hassoc : w ++ (body ++ (ending ++ rest)) = (w ++ (body ++ ending)) ++ rest := by simp
      rw [hlen, hassoc, List.drop_left]
    refine readsAs_of_eq (read_opening hw _) ?_ ?_
    · simp only [readBlock, bodySize?_append hbody, List.take_left]
    · simp only [readBlock, bodySize?_append hbody]
      exact hdrop
  | unended hw hrest =>
    refine readsAs_of_eq (read_opening hw _) ?_ ?_
    · rw [readBlock, bodySize?_eq_none hrest]
    · rw [readBlock, bodySize?_eq_none hrest]
      exact List.drop_left
  | @marked mark more hmark hopen =>
    have hread : Directive.read percent (mark :: more)
        = (.copy (percent :: mark :: more.take 1), (more.take 1).length + 2) := by
      rcases hmark with rfl | rfl
      all_goals
        cases more with
        | nil => rfl
        | cons c cs =>
          have hc : c ≠ openBracket := fun h => hopen (congrArg some h)
          simp [Directive.read, readMarked, hc, asterisk, colon]
    refine readsAs_of_eq ⟨_, _, rfl, hread⟩ rfl ?_
    cases more <;> rfl
  | @insert digits _ left hdigits =>
    have hstop : ∀ c ∈ (letter :: rest).head?, isDigit c = false := by
      rintro c ⟨⟩
      rfl
    have hflag : ∀ c ∈ (digits ++ letter :: rest).head?, c ∉ marks := by
      refine head_not_mark hdigits fun _ => ?_
      rintro c ⟨⟩
      decide
    refine readsAs_of_eq (read_flag left fun _ => hflag) ?_ ?_
    · rw [readInsert_eq _ left hdigits hstop]
      rfl
    · rw [readInsert_eq _ left hdigits hstop]
      exact drop_taken _ _ _
  | @spoiled digits more left hdigits hstop hflag =>
    have hletter : more.head? ≠ some letter := fun h => (hstop letter h).2 rfl
    refine readsAs_of_eq (read_flag left fun hl => head_not_mark hdigits (hflag hl)) ?_ ?_
    · rw [readInsert_eq _ left hdigits fun c hc => (hstop c hc).1]
      exact if_neg hletter
    · rw [readInsert_eq _ left hdigits fun c hc => (hstop c hc).1]
      exact drop_taken _ _ _

/-! ### Every template begins with an item -/

theorem begins_opening (h : Opening mode w) (cs : List Int) :
    ∃ d rest, Begins (w ++ cs) d rest := by
  rcases ending_cases cs with hno | ⟨body, rest, rfl, hbody⟩
  · exact ⟨_, _, .unended h hno⟩
  · exact ⟨_, _, .block h hbody⟩

theorem begins_marked (mode : BlockMode) {mark : Int} (hmark : mark = asterisk ∨ mark = colon)
    (hopen : Opening mode [percent, mark, openBracket]) (cs : List Int) :
    ∃ d rest, Begins (percent :: mark :: cs) d rest := by
  by_cases hc : cs.head? = some openBracket
  · obtain ⟨rest, rfl⟩ := List.head?_eq_some_iff.mp hc
    exact begins_opening hopen rest
  · exact ⟨_, _, .marked hmark hc⟩

theorem begins_flag (left : Bool) (hcs : left = false → ∀ c ∈ cs.head?, c ∉ marks) :
    ∃ d rest, Begins (flag left ++ cs) d rest := by
  have hsplit : cs.takeWhile isDigit ++ cs.dropWhile isDigit = cs := List.takeWhile_append_dropWhile
  have hdigits : ∀ d ∈ cs.takeWhile isDigit, isDigit d = true := by
    intro d hd
    exact List.all_eq_true.mp List.all_takeWhile d hd
  have hstop : ∀ c ∈ (cs.dropWhile isDigit).head?, isDigit c = false := by
    intro c hc
    have := List.head?_dropWhile_not isDigit cs
    rw [hc] at this
    simpa using this
  by_cases hletter : (cs.dropWhile isDigit).head? = some letter
  · obtain ⟨rest, hrest⟩ := List.head?_eq_some_iff.mp hletter
    rw [← hsplit, hrest]
    exact ⟨_, _, .insert left hdigits⟩
  · rw [← hsplit]
    refine ⟨_, _, .spoiled left hdigits (fun c hc => ⟨hstop c hc, ?_⟩) fun hl hnil => ?_⟩
    · rintro rfl
      exact hletter hc
    · -- without digits, what comes next is what the template has after the percent sign
      rw [hnil, List.nil_append] at hsplit
      rw [hsplit]
      exact hcs hl

theorem exists_begins (c : Int) (cs : List Int) : ∃ d rest, Begins (c :: cs) d rest := by
  by_cases hc : c = percent
  · subst hc
    cases cs with
    | nil => exact begins_flag false fun _ _ h => by cases h
    | cons d rest =>
      by_cases hmem : d ∈ marks
      · -- each of the four marks has forms of its own
        simp only [marks, List.mem_cons, List.not_mem_nil, or_false] at hmem
        rcases hmem with rfl | rfl | rfl | rfl
        · exact begins_marked .splat (.inl rfl) .splat rest
        · exact begins_marked .pairs (.inr rfl) .pairs rest
        · exact begins_opening .each rest
        · exact begins_flag true fun h => by cases h
      · refine begins_flag false fun _ => ?_
        rintro e ⟨⟩
        exact hmem
  · exact ⟨_, _, .plain hc⟩

/-- The reader of directives finds an item exactly where the grammar has it. -/
theorem begins_iff : Begins src d rest ↔ ReadsAs src d rest := by
  refine ⟨Begins.readsAs, fun h => ?_⟩
  obtain ⟨c, cs, rfl, -⟩ := id h
  obtain ⟨d', rest', hbegins⟩ := exists_begins c cs
  obtain ⟨rfl, rfl⟩ := h.unique hbegins.readsAs
  exact hbegins

theorem Begins.unique {d' : Directive} {rest' : List Int} (h : Begins src d rest)
    (h' : Begins src d' rest') : d = d' ∧ rest = rest' :=
  h.readsAs.unique h'.readsAs

/-! ### Induction over templates -/

theorem not_begins_nil : ¬Begins [] d rest := by
  intro h
  obtain ⟨c, cs, hnil, -⟩ := h.readsAs
  cases hnil

theorem Begins.rest_lt (h : Begins src d rest) : rest.length < src.length := by
  obtain ⟨c, cs, rfl, -, rfl⟩ := h.readsAs
  have hpos := read_size_pos c cs
  simp only [List.length_drop, List.length_cons]
  omega

theorem Begins.body_lt (h : Begins src (.block mode w body) rest) : body.length < src.length := by
  obtain ⟨c, cs, rfl, hblock, -⟩ := h.readsAs
  exact read_body_lt hblock

/-- Induction over the items of a template, where the body of a block is a template too. -/
@[elab_as_elim] theorem template_induction {P : List Int → Prop} (done : P [])
    (copy : ∀ src points rest, Begins src (.copy points) rest → P rest → P src)
    (insert : ∀ src spelling digits left rest, Begins src (.insert spelling digits left) rest →
      P rest → P src)
    (block : ∀ src mode spelling body rest, Begins src (.block mode spelling body) rest →
      P body → P rest → P src)
    (src : List Int) : P src := by
  induction hn : src.length using Nat.strongRecOn generalizing src with
  | ind n ih =>
    subst hn
    cases src with
    | nil => exact done
    | cons c cs =>
      obtain ⟨d, rest, h⟩ := exists_begins c cs
      have hrest : P rest := ih _ h.rest_lt rest rfl
      cases d with
      | copy points => exact copy _ _ _ h hrest
      | insert spelling digits left => exact insert _ _ _ _ _ h hrest
      | block mode spelling body => exact block _ _ _ _ _ h (ih _ h.body_lt body rfl) hrest

/-! ### Templates as lists of items -/

/-- An item of a template, with the body of a block as items. -/
inductive Item where
  | copy (points : List Int)
  | insert (spelling digits : List Int) (left : Bool)
  | block (mode : BlockMode) (spelling : List Int) (body : List Item)

/-- `Cut src items`: the template `src` is cut from the left into `items`. -/
inductive Cut : List Int → List Item → Prop
  | nil : Cut [] []
  | copy {src points rest : List Int} {items : List Item} :
      Begins src (.copy points) rest → Cut rest items → Cut src (.copy points :: items)
  | insert {src spelling digits rest : List Int} {left : Bool} {items : List Item} :
      Begins src (.insert spelling digits left) rest → Cut rest items →
      Cut src (.insert spelling digits left :: items)
  | block {src spelling body rest : List Int} {mode : BlockMode} {inner items : List Item} :
      Begins src (.block mode spelling body) rest → Cut body inner → Cut rest items →
      Cut src (.block mode spelling inner :: items)

theorem exists_cut (src : List Int) : ∃ items, Cut src items := by
  induction src using template_induction with
  | done => exact ⟨[], .nil⟩
  | copy src points rest h ih =>
    obtain ⟨items, hitems⟩ := ih
    exact ⟨_, .copy h hitems⟩
  | insert src spelling digits left rest h ih =>
    obtain ⟨items, hitems⟩ := ih
    exact ⟨_, .insert h hitems⟩
  | block src mode spelling body rest h ihb ih =>
    obtain ⟨inner, hinner⟩ := ihb
    obtain ⟨items, hitems⟩ := ih
    exact ⟨_, .block h hinner hitems⟩

/-- The items of a template follow the item that it begins with. -/
theorem Cut.first {items : List Item} (hb : Begins src d rest) (h : Cut src items) :
    match d with
    | .copy points => ∃ tail, items = .copy points :: tail ∧ Cut rest tail
    | .insert spelling digits left =>
      ∃ tail, items = .insert spelling digits left :: tail ∧ Cut rest tail
    | .block mode spelling body =>
      ∃ inner tail, items = .block mode spelling inner :: tail ∧
        Cut body inner ∧ Cut rest tail := by
  cases h with
  | nil => exact absurd hb not_begins_nil
  | copy hb' hrest =>
    obtain ⟨rfl, rfl⟩ := hb.unique hb'
    exact ⟨_, rfl, hrest⟩
  | insert hb' hrest =>
    obtain ⟨rfl, rfl⟩ := hb.unique hb'
    exact ⟨_, rfl, hrest⟩
  | block hb' hbody hrest =>
    obtain ⟨rfl, rfl⟩ := hb.unique hb'
    exact ⟨_, _, rfl, hbody, hrest⟩

/-- A template is cut in one way only. -/
theorem Cut.unique {items items' : List Item} (h : Cut src items) (h' : Cut src items') :
    items = items' := by
  induction h generalizing items' with
  | nil =>
    cases h' with
    | nil => rfl
    | copy hb => exact absurd hb not_begins_nil
    | insert hb => exact absurd hb not_begins_nil
    | block hb => exact absurd hb not_begins_nil
  | copy hb _ ih =>
    obtain ⟨tail, rfl, hrest⟩ := Cut.first hb h'
    rw [ih hrest]
  | insert hb _ ih =>
    obtain ⟨tail, rfl, hrest⟩ := Cut.first hb h'
    rw [ih hrest]
  | block hb _ _ ihb ih =>
    obtain ⟨inner, tail, rfl, hbody, hrest⟩ := Cut.first hb h'
    rw [ihb hbody, ih hrest]

end TextScript
