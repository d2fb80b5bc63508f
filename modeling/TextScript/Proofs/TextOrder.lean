/-
TextScript/Proofs/TextOrder.lean

The order of texts, and the operators that rest on it.

Of two sequences of code points one comes first in the lexicographic order, or they are the same,
and the comparison says which (`comparePoints_cases`).  That order is linear, so the laws of the
comparison are laws of the order: the sign of a comparison stands for `<`, `=` or `>` between the
two sequences (`compare_neg_iff`, `compare_eq_zero_iff`, `compare_pos_iff`).

Seven operators compare two texts.  Four of them compare by themselves and three are messages to
the text on the left, which the table of methods answers.  `BinaryOp.verdict?` lists what each
makes of the comparison, and either way comes to that (`binary_texts`).
-/
import Mathlib.Data.Int.Order.Basic
import Mathlib.Data.List.Lex
import TextScript.Proofs.Evaluation

namespace TextScript

namespace Text

variable {t u v : Text}

/-! ### The comparison and the lexicographic order -/

theorem comparePoints_cases (as bs : List Int) :
    as < bs ∧ comparePoints as bs = -1 ∨ as = bs ∧ comparePoints as bs = 0 ∨
      bs < as ∧ comparePoints as bs = 1 := by
  induction as generalizing bs with
  | nil =>
    cases bs with
    | nil => exact .inr (.inl ⟨rfl, rfl⟩)
    | cons b bs => exact .inl ⟨List.nil_lt_cons b bs, rfl⟩
  | cons a as ih =>
    cases bs with
    | nil => exact .inr (.inr ⟨List.nil_lt_cons a as, rfl⟩)
    | cons b bs =>
      rw [comparePoints, List.cons_lt_cons_iff, List.cons_lt_cons_iff, List.cons.injEq]
      -- the first code points decide unless they are the same
      rcases lt_trichotomy a b with hlt | rfl | hgt
      · rw [if_pos hlt]
        exact .inl ⟨.inl hlt, rfl⟩
      · rw [if_neg (lt_irrefl a), if_neg (lt_irrefl a)]
        rcases ih bs with ⟨hlt, h⟩ | ⟨heq, h⟩ | ⟨hgt, h⟩
        · exact .inl ⟨.inr ⟨rfl, hlt⟩, h⟩
        · exact .inr (.inl ⟨⟨rfl, heq⟩, h⟩)
        · exact .inr (.inr ⟨.inr ⟨rfl, hgt⟩, h⟩)
      · rw [if_neg (lt_asymm hgt), if_pos hgt]
        exact .inr (.inr ⟨.inl hgt, rfl⟩)

theorem compare_cases (t u : Text) :
    t.points < u.points ∧ t.compare u = -1 ∨ t.points = u.points ∧ t.compare u = 0 ∨
      u.points < t.points ∧ t.compare u = 1 :=
  comparePoints_cases t.points u.points

theorem compare_neg_iff : t.compare u < 0 ↔ t.points < u.points := by
  rcases compare_cases t u with ⟨hlt, h⟩ | ⟨heq, h⟩ | ⟨hgt, h⟩
  · exact iff_of_true (by omega) hlt
  · exact iff_of_false (by omega) (heq ▸ lt_irrefl _)
  · exact iff_of_false (by omega) (lt_asymm hgt)

theorem compare_pos_iff : 0 < t.compare u ↔ u.points < t.points := by
  rcases compare_cases t u with ⟨hlt, h⟩ | ⟨heq, h⟩ | ⟨hgt, h⟩
  · exact iff_of_false (by omega) (lt_asymm hlt)
  · exact iff_of_false (by omega) (heq ▸ lt_irrefl _)
  · exact iff_of_true (by omega) hgt

theorem compare_eq_zero_iff : t.compare u = 0 ↔ t = u := by
  rcases compare_cases t u with ⟨hlt, h⟩ | ⟨heq, h⟩ | ⟨hgt, h⟩
  · exact iff_of_false (by omega) fun hsame => hlt.ne (congrArg points hsame)
  · exact iff_of_true h (congrArg Text.mk heq)
  · exact iff_of_false (by omega) fun hsame => hgt.ne' (congrArg points hsame)

theorem compare_nonpos_iff : t.compare u ≤ 0 ↔ t.points ≤ u.points := by
  rw [← not_lt, compare_pos_iff, not_lt]

/-! ### The laws of the comparison -/

theorem compare_values (t u : Text) : t.compare u = -1 ∨ t.compare u = 0 ∨ t.compare u = 1 :=
  (compare_cases t u).imp And.right (Or.imp And.right And.right)

theorem compare_swap (t u : Text) : u.compare t = -t.compare u := by
  rcases compare_cases t u with ⟨hlt, h⟩ | ⟨heq, h⟩ | ⟨hgt, h⟩
  · have hpos := compare_pos_iff.mpr hlt
    have hvalues := compare_values u t
    omega
  · obtain rfl := compare_eq_zero_iff.mp h
    omega
  · have hneg := compare_neg_iff.mpr hgt
    have hvalues := compare_values u t
    omega

theorem compare_trans (h : t.compare u ≤ 0) (h' : u.compare v ≤ 0) : t.compare v ≤ 0 :=
  compare_nonpos_iff.mpr ((compare_nonpos_iff.mp h).trans (compare_nonpos_iff.mp h'))

theorem compare_trans_lt (h : t.compare u < 0) (h' : u.compare v < 0) : t.compare v < 0 :=
  compare_neg_iff.mpr ((compare_neg_iff.mp h).trans (compare_neg_iff.mp h'))

/-- A proper beginning of a text comes before it. -/
theorem compare_of_prefix (h : t.points <+: u.points) (hne : t ≠ u) : t.compare u = -1 := by
  obtain ⟨_ | ⟨c, cs⟩, heq⟩ := h
  · rw [List.append_nil] at heq
    exact absurd (congrArg Text.mk heq) hne
  · have hlex : List.Lex (· < ·) (t.points ++ []) (t.points ++ c :: cs) := .append_left _ .nil _
    rw [List.append_nil, heq] at hlex
    have hneg := compare_neg_iff.mpr hlex
    have hvalues := compare_values t u
    omega

end Text

/-! ### Operators between texts -/

/-- What an operator makes of the comparison of two texts, if it compares them. -/
def BinaryOp.verdict? (c : Int) : BinaryOp → Option Value
  | .lt => some (.bool (c < 0))
  | .gt => some (.bool (c > 0))
  | .lte => some (.bool (c ≤ 0))
  | .gte => some (.bool (c ≥ 0))
  | .eq => some (.bool (c = 0))
  | .notEq => some (.bool (c ≠ 0))
  | .spaceship => some (.int (Int64.ofInt c))
  | _ => none

namespace TextMethods

variable {op : BinaryOp} {w : Value}

/-- The three comparisons among the methods answer by the comparison of the two texts. -/
theorem send_compares (hop : op = .eq ∨ op = .notEq ∨ op = .spaceship) (casing : Casing)
    (engine : Engine) (t u : Text) (h : op.verdict? (t.compare u) = some w) :
    send casing engine t op.symbol [.text u] = .ok w := by
  have hequal : t.equals u = decide (t.compare u = 0) := by
    rw [Bool.eq_iff_iff, Text.equals_iff, decide_eq_true_iff, Text.compare_eq_zero_iff]
  rcases hop with rfl | rfl | rfl
  · cases h
    show Traced.ok (Value.bool (t.equals u)) = _
    rw [hequal]
  · cases h
    show Traced.ok (Value.bool !t.equals u) = _
    rw [hequal, decide_not]
  · cases h
    rfl

end TextMethods

namespace Eval

variable {sv : Services} {op : BinaryOp} {t u : Text} {w : Value}

/-- Between two texts, an operator that compares gives its verdict. -/
theorem binary_texts (sv : Services) (h : op.verdict? (t.compare u) = some w) :
    binary sv op (.text t) (.text u) = .ok w := by
  show textWith sv op t (.text u) = _
  cases op with
  | eq => exact TextMethods.send_compares (.inl rfl) _ _ _ _ h
  | notEq => exact TextMethods.send_compares (.inr (.inl rfl)) _ _ _ _ h
  | spaceship => exact TextMethods.send_compares (.inr (.inr rfl)) _ _ _ _ h
  | lt => cases h; rfl
  | gt => cases h; rfl
  | lte => cases h; rfl
  | gte => cases h; rfl
  | _ => cases h

/-- An expression that compares what two others evaluate to, if these are texts. -/
theorem eval_texts {tok : Token} {left right : Expr} {st st₁ st₂ : EvalState}
    (hleft : eval sv left st = (.ok (.text t), st₁))
    (hright : eval sv right st₁ = (.ok (.text u), st₂)) (h : op.verdict? (t.compare u) = some w) :
    eval sv (.binary tok left op right) st = (.ok w, st₂) := by
  have hops : op ≠ .assign ∧ op ≠ .and ∧ op ≠ .or := by
    refine ⟨?_, ?_, ?_⟩ <;>
    · rintro rfl
      cases h
  rw [eval_operator hops.1 hops.2.1 hops.2.2, Action.bind_ok hleft, Action.bind_ok hright,
    binary_texts sv h]
  show (Except.ok w, { st₂ with events := st₂.events ++ [] }) = _
  rw [List.append_nil]

/-- The comparison of texts is the lexicographic order of their code points: it comes to -1, 0 or
1, to 0 exactly for equal texts, to its negation the other way round, it is transitive, and a
proper beginning comes before every extension.  Each of the seven operators between two texts
gives its verdict on that comparison, whatever the expressions are that the texts come from; and
so do the three of them that are methods, when they are sent. -/
theorem comparison_orders_texts (t u v : Text) :
    (t.compare u = -1 ∨ t.compare u = 0 ∨ t.compare u = 1) ∧
    (t.compare u < 0 ↔ t.points < u.points) ∧
    (t.compare u = 0 ↔ t.equals u = true) ∧
    u.compare t = -t.compare u ∧
    (t.compare u ≤ 0 → u.compare v ≤ 0 → t.compare v ≤ 0) ∧
    (t.compare u < 0 → u.compare v < 0 → t.compare v < 0) ∧
    (t.points <+: u.points → t ≠ u → t.compare u = -1) ∧
    ∀ (op : BinaryOp) (w : Value), op.verdict? (t.compare u) = some w →
      (∀ (sv : Services) (tok : Token) (left right : Expr) (st st₁ st₂ : EvalState),
        eval sv left st = (.ok (.text t), st₁) → eval sv right st₁ = (.ok (.text u), st₂) →
        eval sv (.binary tok left op right) st = (.ok w, st₂)) ∧
      (op = .eq ∨ op = .notEq ∨ op = .spaceship →
        ∀ (casing : Casing) (engine : Engine),
          TextMethods.send casing engine t op.symbol [.text u] = .ok w) := by
  refine ⟨Text.compare_values t u, Text.compare_neg_iff, ?_, Text.compare_swap t u,
    Text.compare_trans, Text.compare_trans_lt, Text.compare_of_prefix,
    fun op w h => ⟨?_, fun hop casing engine => ?_⟩⟩
  · rw [Text.compare_eq_zero_iff, Text.equals_iff]
  · intro sv tok left right st st₁ st₂ hleft hright
    exact eval_texts hleft hright h
  · exact TextMethods.send_compares hop casing engine t u h

/-- Three texts in ascending order, the first the beginning of the second. -/
theorem comparison_orders_texts_prefix :
    let t : Text := ⟨[0x61]⟩
    let u : Text := ⟨[0x61, 0x62]⟩
    let v : Text := ⟨[0x62]⟩
    t.compare u = -1 ∧ t.compare v < 0 ∧ u.compare t = 1 ∧
      eval {} (.binary {} (.text {} t) .gte (.text {} u)) {} = (.ok (.bool false), {}) ∧
      TextMethods.send .simple {} t "<=>" [.text u] = .ok (.int (-1)) := by
  intro t u v
  obtain ⟨-, -, -, hswap, -, htrans, hprefix, hops⟩ := comparison_orders_texts t u v
  have hfirst : t.compare u = -1 := hprefix ⟨[0x62], rfl⟩ (by decide)
  have heval : ∀ w st, eval {} (.text {} w) st = (.ok (.text w), st) := by
    intro w st
    rw [eval]
    rfl
  refine ⟨hfirst, htrans (by omega) (by decide), ?_, ?_, ?_⟩
  · rw [hswap, hfirst]
    rfl
  · exact (hops .gte (.bool false) rfl).1 {} {} _ _ {} {} {} (heval t {}) (heval u {})
  · exact (hops .spaceship (.int (-1)) rfl).2 (.inr (.inr rfl)) .simple {}

end Eval

end TextScript
