/-
TextScript/Proofs/Dispatch.lean

Calling a method by its name.

A call runs a method exactly if the name is in the table and the description of the method admits
the number of arguments.

What a method does may depend on how it finds its arguments.  `Faithful` says of a way to find
them that it is right as far as the arguments go, and nothing of what it does beyond.  Where two
methods differ only beyond, calling them makes no difference (`dispatch_alike`), and so do all
methods of texts (`methods_alike`): no call that is admitted looks for an argument that was not
given.
-/
import Mathlib.Data.List.Forall2
import TextScript.Proofs.OutputBound
import TextScript.Proofs.PlainValues

namespace TextScript

/-! ### Failures of a call -/

namespace Failure

open Engine (reportedAs)

variable {f : Failure} {code : Code}

theorem reportedAs_make (code : Code) (data : Option Data) : reportedAs code (make code data) := by
  have hcode : (Report.make code data).code = code := by
    unfold Report.make
    split <;> rfl
  unfold make
  split <;> exact congrArg some hcode

theorem reportedAs_suggesting (h : reportedAs code f) (name : String) (available : List String) :
    reportedAs code (f.suggesting name available) := by
  have hhint : ∀ hint, reportedAs code (f.withHint hint) := by
    intro hint
    cases f with
    | plain m => cases h
    | coded r => exact h
    | wrapped r c => exact h
  unfold suggesting
  split
  · split
    · exact h
    · exact hhint _
  · exact h

end Failure

/-! ### Calls -/

/-- Two methods that take the same numbers of arguments and do the same with as many. -/
structure Method.Alike (m m' : Method) : Prop where
  arity : m.arity = m'.arity
  run : ∀ (engine : Engine) (recv : Text) (args : List Value),
    Arity.admits m.arity args.length = true →
    m.run engine recv args = m'.run engine recv args

namespace MethodTable

open Engine (reportedAs)

variable {t t' : MethodTable} {m : Method} {name : String} {args : List Value}

/-- Two tables with methods alike under the same names. -/
def Alike (t t' : MethodTable) : Prop :=
  List.Forall₂ (fun entry entry' => entry.1 = entry'.1 ∧ entry.2.Alike entry'.2) t t'

theorem dispatch_absent (h : t.find? name = none) (engine : Engine) (recv : Text) :
    ∃ f, t.dispatch engine recv name args = .fail f ∧ reportedAs .unknownMethod f := by
  rw [dispatch, h]
  exact ⟨_, rfl, Failure.reportedAs_suggesting (Failure.reportedAs_make _ _) _ _⟩

theorem dispatch_refused (h : t.find? name = some m)
    (hargs : Arity.admits m.arity args.length = false) (engine : Engine) (recv : Text) :
    ∃ f, t.dispatch engine recv name args = .fail f ∧ reportedAs .arity f := by
  rw [dispatch, h]
  refine ⟨_, if_neg (by rw [hargs]; decide), Failure.reportedAs_make _ _⟩

theorem dispatch_admitted (h : t.find? name = some m)
    (hargs : Arity.admits m.arity args.length = true) (engine : Engine) (recv : Text) :
    t.dispatch engine recv name args = m.run engine recv args := by
  rw [dispatch, h]
  exact if_pos hargs

theorem Alike.names (h : t.Alike t') : t.names = t'.names := by
  have hmap : t.map (·.1) = t'.map (·.1) := by
    induction h with
    | nil => rfl
    | cons hentry _ ih => rw [List.map_cons, List.map_cons, hentry.1, ih]
  rw [MethodTable.names, MethodTable.names, hmap]

/-- A name has no method in either table, or two methods that are alike. -/
theorem Alike.find? (h : t.Alike t') (name : String) :
    Option.Rel Method.Alike (t.find? name) (t'.find? name) := by
  induction h with
  | nil => exact .none
  | @cons entry entry' _ _ hentry _ ih =>
    obtain ⟨key, m⟩ := entry
    obtain ⟨key', m'⟩ := entry'
    obtain ⟨rfl, halike⟩ := hentry
    rw [MethodTable.find?, MethodTable.find?, List.lookup_cons, List.lookup_cons]
    cases name == key with
    | true => exact .some halike
    | false => exact ih

/-- Calls to tables that are alike come to the same. -/
theorem dispatch_alike (h : t.Alike t') (engine : Engine) (recv : Text) (name : String)
    (args : List Value) :
    t.dispatch engine recv name args = t'.dispatch engine recv name args := by
  -- names are the same, so a failure suggests the same; a method is run on an admitted count only
  have hfound := h.find? name
  rw [dispatch, dispatch, h.names]
  generalize t.find? name = found at hfound ⊢
  generalize t'.find? name = found' at hfound ⊢
  cases hfound with
  | none => rfl
  | @some m m' hmethods =>
    show (if _ then _ else _) = if _ then _ else _
    rw [← hmethods.arity]
    split
    · next hargs => exact hmethods.run engine recv args hargs
    · rfl

end MethodTable

/-! ### Methods of texts -/

namespace TextMethods

variable {find : ArgumentAt} {args : List Value} {i : Nat}

/-- A way to find arguments that is right as far as the arguments go. -/
def Faithful (find : ArgumentAt) : Prop :=
  ∀ (args : List Value) (i : Nat) (v : Value), args[i]? = some v → find args i = .ok v

theorem Faithful.find_eq (h : Faithful find) (hi : i < args.length) : find args i = arg args i := by
  have hget : args[i]? = some args[i] := List.getElem?_eq_getElem hi
  rw [h args i _ hget, arg, hget]

theorem Faithful.textArg_eq (h : Faithful find) (hi : i < args.length) (method : String) :
    textArg find method args i = textArg arg method args i := by
  rw [textArg, textArg, h.find_eq hi]

theorem Faithful.separator_eq (h : Faithful find) (args : List Value) :
    separator find args = separator arg args := by
  unfold separator
  split
  · exact h.textArg_eq (by omega) "split"
  · rfl

/-- A method that looks for no argument. -/
theorem alike_self (m : Method) : m.Alike m :=
  ⟨rfl, fun _ _ _ _ => rfl⟩

/-- A method of one argument. -/
theorem Faithful.alike_one (h : Faithful find) {description : String}
    {g : Text → Value → Except Failure Value} :
    Method.Alike
      { arity := "1", description, run := fun _ recv args => do .lift (g recv (← find args 0)) }
      { arity := "1", description, run := fun _ recv args => do .lift (g recv (← arg args 0)) } :=
  ⟨rfl, fun _ _ _ hargs => by simp only [h.find_eq (admits_zero_one hargs)]⟩

/-- A method of two texts. -/
theorem Faithful.alike_two (h : Faithful find) {name description : String}
    {g : Text → Text → Text → Text} :
    Method.Alike
      { arity := "2", description
        run := fun _ recv args => do
          let old ← textArg find name args 0
          let new ← textArg find name args 1
          return .text (g recv old new) }
      { arity := "2", description
        run := fun _ recv args => do
          let old ← textArg arg name args 0
          let new ← textArg arg name args 1
          return .text (g recv old new) } := by
  refine ⟨rfl, fun _ _ args hargs => ?_⟩
  have htwo : 1 < args.length := admits_two hargs
  simp only [h.textArg_eq htwo, h.textArg_eq (Nat.zero_lt_of_lt htwo)]

/-- The methods of texts look for no argument beyond those that they are called with. -/
theorem methods_alike (h : Faithful find) (casing : Casing) :
    MethodTable.Alike (methods casing find) (table casing) := by
  simp only [MethodTable.Alike, table, methods, List.forall₂_cons, true_and]
  refine ⟨h.alike_one, h.alike_one, h.alike_one, alike_self _, alike_self _, h.alike_one,
    alike_self _, alike_self _, alike_self _, alike_self _, alike_self _, alike_self _,
    alike_self _, alike_self _, ⟨rfl, fun _ _ args _ => ?split⟩, h.alike_two, h.alike_two,
    alike_self _, alike_self _, alike_self _, .nil⟩
  case split => simp only [h.separator_eq args]

end TextMethods

/-! ### What a call comes to -/

namespace MethodTable

open Engine (reportedAs)

/-- What a call comes to.  A name that is not in the table fails as unknown, a number of arguments
that the description does not admit fails for the number, and any other call runs the method.
Numerals are read as exact counts, as ranges and as least counts.  No method of texts depends on
what it would find beyond the arguments of the call. -/
theorem dispatch_by_arity (t : MethodTable) (engine : Engine) (recv : Text) (name : String)
    (args : List Value) :
    (t.find? name = none →
      ∃ f, t.dispatch engine recv name args = .fail f ∧ reportedAs .unknownMethod f) ∧
    (∀ m, t.find? name = some m → Arity.admits m.arity args.length = false →
      ∃ f, t.dispatch engine recv name args = .fail f ∧ reportedAs .arity f) ∧
    (∀ m, t.find? name = some m → Arity.admits m.arity args.length = true →
      t.dispatch engine recv name args = m.run engine recv args) ∧
    (∀ (d e : List Char) (a b : Nat), Arity.Writes d a → Arity.Writes e b → a < 2 ^ 63 →
      b < 2 ^ 63 → ∀ n : Nat,
      (Arity.admits (String.ofList d) n = true ↔ n = a) ∧
      (Arity.admits (String.ofList (d ++ '-' :: e)) n = true ↔ a ≤ n ∧ n ≤ b) ∧
      (Arity.admits (String.ofList (d ++ ['+'])) n = true ↔ a ≤ n)) ∧
    (∀ a : Nat, Arity.Writes (toString a).toList a) ∧
    ∀ (casing : Casing) (find : TextMethods.ArgumentAt), TextMethods.Faithful find →
      (TextMethods.methods casing find).dispatch engine recv name args =
        (TextMethods.table casing).dispatch engine recv name args := by
  refine ⟨fun h => dispatch_absent h engine recv,
    fun m h hargs => dispatch_refused h hargs engine recv,
    fun m h hargs => dispatch_admitted h hargs engine recv, ?_, Arity.writes_toString,
    fun casing find h => dispatch_alike (TextMethods.methods_alike h casing) engine recv name args⟩
  intro d e a b hd he ha hb n
  exact ⟨Arity.admits_exact hd ha, Arity.admits_between hd he ha hb, Arity.admits_least hd ha⟩

/-- A name misspelt, an argument too few, a call that runs, a range with zeros in front, and
arguments that are found with `nil` behind the last of them. -/
theorem dispatch_by_arity_replace :
    (∃ f, (TextMethods.table .simple).dispatch ⟨.native, 0⟩ .empty "replcae" [.nil, .nil] =
        .fail f ∧
      reportedAs .unknownMethod f) ∧
    (∃ m, (TextMethods.table .simple).find? "replace" = some m ∧
      (∃ f, (TextMethods.table .simple).dispatch ⟨.native, 0⟩ .empty "replace" [.nil] = .fail f ∧
        reportedAs .arity f) ∧
      (TextMethods.table .simple).dispatch ⟨.native, 0⟩ .empty "replace" [.nil, .nil] =
        m.run ⟨.native, 0⟩ .empty [.nil, .nil]) ∧
    (Arity.admits "007-12" 9 = true ↔ 7 ≤ 9 ∧ 9 ≤ 12) ∧
    (TextMethods.methods .simple fun args i => .ok (args[i]?.getD .nil)).dispatch
      ⟨.native, 0⟩ .empty "replace" [.nil] =
      (TextMethods.table .simple).dispatch ⟨.native, 0⟩ .empty "replace" [.nil] := by
  have hmissing : (TextMethods.table .simple).find? "replcae" = none :=
    Option.isNone_iff_eq_none.mp (by decide)
  have hdescribed : ((TextMethods.table .simple).find? "replace").map Method.arity = some "2" := by
    decide
  obtain ⟨m, hm, harity⟩ := Option.map_eq_some_iff.mp hdescribed
  have hone : Arity.admits m.arity 1 = false := by
    rw [harity]
    decide +kernel
  have htwo : Arity.admits m.arity 2 = true := by
    rw [harity]
    decide +kernel
  have hfaithful : TextMethods.Faithful fun args i => .ok (args[i]?.getD .nil) := by
    intro args i v h
    simp only [h, Option.getD_some]
  have hlow : Arity.Writes ['0', '0', '7'] 7 := ⟨List.cons_ne_nil _ _, by simp, rfl⟩
  have hhigh : Arity.Writes ['1', '2'] 12 := ⟨List.cons_ne_nil _ _, by simp, rfl⟩
  obtain ⟨habsent, -, -, -, -, -⟩ :=
    dispatch_by_arity (TextMethods.table .simple) ⟨.native, 0⟩ .empty "replcae" [.nil, .nil]
  obtain ⟨-, hrefused, -, hforms, -, hfind⟩ :=
    dispatch_by_arity (TextMethods.table .simple) ⟨.native, 0⟩ .empty "replace" [.nil]
  obtain ⟨-, -, hrun, -, -, -⟩ :=
    dispatch_by_arity (TextMethods.table .simple) ⟨.native, 0⟩ .empty "replace" [.nil, .nil]
  exact ⟨habsent hmissing, ⟨m, hm, hrefused m hm hone, hrun m hm htwo⟩,
    (hforms _ _ 7 12 hlow hhigh (by decide) (by decide) 9).2.1, hfind .simple _ hfaithful⟩

end MethodTable

end TextScript
