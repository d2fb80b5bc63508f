/-
TextScript/Proofs/ScopeChains.lean

Chains of scopes: what a name is bound to, and which names there are.

A chain begins with the outermost scope; a new scope may be enclosed in it at any time, and at any
time a name may be bound in any scope of the chain, the outer ones included.  `Built log e` says
that the chain `e` came about in this way, with the bindings of `log` in this order, each at the
level of its scope: how many scopes enclose it.

Every scope holds the latest binding of each name at its level (`Agrees`), because binding a name
changes one scope of the chain and leaves the others around it (`Agrees.bound`).  Looking a name
up goes from a scope outwards through the levels, and that is `nearest`, a function of the log
alone.
-/
import Mathlib.Data.String.Basic
import TextScript.HostBoundary

namespace TextScript

/-! ### One scope -/

namespace Scope

variable {s : Scope} {name other : String} {v : Value}

theorem get?_set_self (s : Scope) (name : String) (v : Value) :
    (s.set name v).get? name = some v := by
  induction s with
  | nil => exact List.lookup_cons_self
  | cons entry rest ih =>
    obtain ⟨n, w⟩ := entry
    rw [set]
    split
    · next hn =>
      subst hn
      exact List.lookup_cons_self
    · next hn =>
      rw [get?, List.lookup_cons, beq_false_of_ne (Ne.symm hn)]
      exact ih

theorem isSome_get?_iff : (s.get? name).isSome ↔ name ∈ s.map Prod.fst := by
  simp [get?]

end Scope

/-! ### Scopes further out -/

namespace Env

variable {e e' view : Env} {name other : String} {v : Value} {k : Nat}

/-- How many scopes enclose the innermost one. -/
def level (e : Env) : Nat :=
  e.outer.length

/-- The scope so many steps outwards, with those that enclose it. -/
def outwards? : Nat → Env → Option Env
  | 0, e => some e
  | k + 1, e => e.leave?.bind (outwards? k)

/-- The chain with the scope so many steps outwards changed.  The scopes further inside stay
around it. -/
def changeOut? (change : Env → Env) : Nat → Env → Option Env
  | 0, e => some (change e)
  | k + 1, e =>
    (e.leave?.bind (changeOut? change k)).map fun out => ⟨e.inner, out.scopes, out.marks⟩

theorem exists_outwards (hk : k ≤ e.level) :
    ∃ view, e.outwards? k = some view ∧ view.scopes = e.scopes.drop k := by
  obtain ⟨inner, outer, marks⟩ := e
  induction k generalizing inner outer with
  | zero => exact ⟨_, rfl, rfl⟩
  | succ k ih =>
    cases outer with
    | nil => exact absurd hk (Nat.not_succ_le_zero k)
    | cons s rest =>
      obtain ⟨view, hview, hscopes⟩ := ih s rest (Nat.le_of_succ_le_succ hk)
      exact ⟨view, hview, hscopes⟩

/-- The level is one less for every step. -/
theorem level_of_scopes (hk : k ≤ e.level) (h : view.scopes = e.scopes.drop k) :
    view.level = e.level - k := by
  have hlength := congrArg List.length h
  rw [List.length_drop] at hlength
  simp only [scopes, List.length_cons] at hlength
  unfold level at hk ⊢
  omega

/-- A change binds a name in the innermost scope and leaves those that enclose it as they are. -/
def Binds (change : Env → Env) (name : String) (v : Value) (marks : Nat) : Prop :=
  ∀ out : Env, out.marks = marks → (change out).scopes = out.inner.set name v :: out.outer

theorem binds_set (name : String) (v : Value) (marks : Nat) : Binds (·.set name v) name v marks :=
  fun _ _ => rfl

/-- A value from outside is bound as it is adopted. -/
theorem binds_hold (name : String) (v : Value) (marks : Nat) :
    Binds (·.hold name v) name (v.adopt marks).1 marks := by
  rintro out rfl
  rfl

theorem exists_changeOut {change : Env → Env} (h : Binds change name v e.marks) (hk : k ≤ e.level) :
    ∃ e', e.changeOut? change k = some e' ∧ e'.scopes = e.scopes.modify k (·.set name v) := by
  obtain ⟨inner, outer, marks⟩ := e
  induction k generalizing inner outer with
  | zero => exact ⟨_, rfl, h _ rfl⟩
  | succ k ih =>
    cases outer with
    | nil => exact absurd hk (Nat.not_succ_le_zero k)
    | cons s rest =>
      obtain ⟨out, hout, hscopes⟩ := ih s rest h (Nat.le_of_succ_le_succ hk)
      refine ⟨⟨inner, out.scopes, out.marks⟩, ?_, ?_⟩
      · show ((changeOut? change k ⟨s, rest, marks⟩).map _) = _
        rw [hout]
        rfl
      · show inner :: out.scopes = _
        rw [hscopes]
        rfl

/-- There is no scope to change further out than the outermost. -/
theorem le_level_of_changeOut {change : Env → Env} (h : e.changeOut? change k = some e') :
    k ≤ e.level := by
  obtain ⟨inner, outer, marks⟩ := e
  induction k generalizing inner outer e' with
  | zero => exact Nat.zero_le _
  | succ k ih =>
    cases outer with
    | nil => cases h
    | cons s rest =>
      obtain ⟨out, hout, -⟩ := Option.map_eq_some_iff.mp h
      exact Nat.succ_le_succ (ih s rest hout)

theorem scopes_of_changeOut {change : Env → Env} (h : Binds change name v e.marks)
    (hchange : e.changeOut? change k = some e') : e'.scopes = e.scopes.modify k (·.set name v) := by
  obtain ⟨out, hout, hscopes⟩ := exists_changeOut h (le_level_of_changeOut hchange)
  rw [hchange] at hout
  cases hout
  exact hscopes

theorem level_of_modify {f : Scope → Scope} (h : e'.scopes = e.scopes.modify k f) :
    e'.level = e.level := by
  have hlength := congrArg List.length h
  rw [List.length_modify] at hlength
  exact Nat.succ.inj hlength

/-! ### What is visible -/

theorem isSome_get?_iff : (e.get? name).isSome ↔ ∃ scope ∈ e.scopes, (scope.get? name).isSome := by
  rw [get?, List.findSome?_isSome_iff]

theorem mem_names : name ∈ e.names ↔ (e.get? name).isSome := by
  rw [names, List.mem_mergeSort, List.mem_eraseDups, List.mem_flatMap, isSome_get?_iff]
  simp only [Scope.isSome_get?_iff]

/-- A list without its repetitions has none. -/
theorem nodup_eraseDups (names : List String) : names.eraseDups.Nodup := by
  induction hn : names.length using Nat.strongRecOn generalizing names with
  | ind n ih =>
    cases names with
    | nil => exact List.nodup_nil
    | cons name rest =>
      rw [List.eraseDups_cons]
      refine List.nodup_cons.mpr ⟨?_, ih _ ?_ _ rfl⟩
      · rw [List.mem_eraseDups]
        simp
      · have hfewer := List.length_filter_le (fun other => !other == name) rest
        rw [List.length_cons] at hn
        omega

/-- The names come in strictly ascending order. -/
theorem names_ascending (e : Env) : e.names.Pairwise (· < ·) := by
  have hle : e.names.Pairwise fun a b => decide (a ≤ b) = true := by
    refine List.pairwise_mergeSort (fun a b c hab hbc => ?_) (fun a b => ?_) _
    · rw [decide_eq_true_eq] at hab hbc ⊢
      exact le_trans hab hbc
    · rw [Bool.or_eq_true, decide_eq_true_eq, decide_eq_true_eq]
      exact le_total a b
  have hne : e.names.Nodup := (List.mergeSort_perm _ _).nodup_iff.mpr (nodup_eraseDups _)
  refine (hle.and hne).imp fun {a b} h => ?_
  exact lt_of_le_of_ne (of_decide_eq_true h.1) h.2

/-- Names that all have a value, with these values as the engine sees them. -/
theorem bindings_of_names (get : String → Option Value) {names : List String}
    (h : ∀ name ∈ names, (get name).isSome) :
    (names.filterMap fun name => (get name).map fun v => (name, v.toHost)).map Prod.fst = names ∧
      ∀ name, (names.filterMap fun name => (get name).map fun v => (name, v.toHost)).lookup name
        = if name ∈ names then (get name).map Value.toHost else none := by
  induction names with
  | nil => exact ⟨rfl, fun _ => rfl⟩
  | cons first rest ih =>
    obtain ⟨hfirst, hrest⟩ := List.forall_mem_cons.mp h
    obtain ⟨v, hv⟩ := Option.isSome_iff_exists.mp hfirst
    obtain ⟨hkeys, hlookup⟩ := ih hrest
    simp only [List.filterMap_cons, hv, Option.map_some]
    refine ⟨by rw [List.map_cons, hkeys], fun name => ?_⟩
    rw [List.lookup_cons, hlookup]
    by_cases hname : name = first
    · subst hname
      simp [hv]
    · rw [beq_false_of_ne hname]
      simp [hname]

/-- The engine gets one entry for every visible name, and the value that the name has. -/
theorem hostBindings_visible (e : Env) :
    e.hostBindings.map Prod.fst = e.names ∧
      ∀ name, e.hostBindings.lookup name = (e.get? name).map Value.toHost := by
  obtain ⟨hkeys, hlookup⟩ := bindings_of_names e.get? fun name h => mem_names.mp h
  refine ⟨hkeys, fun name => ?_⟩
  rw [hostBindings, hlookup]
  split
  · rfl
  · next hname =>
    rw [mem_names, Option.not_isSome_iff_eq_none] at hname
    rw [hname]
    rfl

end Env

namespace Scopes

/-! ### Bindings in order -/

/-- A name that was bound in the scope at some level. -/
structure Binding where
  level : Nat
  name : String
  value : Value

/-- The value that was bound last to a name at a level. -/
def latest (log : List Binding) (level : Nat) (name : String) : Option Value :=
  ((log.filter fun b => b.level = level ∧ b.name = name).getLast?).map Binding.value

/-- The value that was bound last to a name at the nearest level that has it: a level itself, or one
further out. -/
def nearest (log : List Binding) : Nat → String → Option Value
  | 0, name => latest log 0 name
  | level + 1, name => (latest log (level + 1) name).or (nearest log level name)

/-- `Sees log name changed level`: the scope at `level` is the one at the level `changed` or
enclosed in it, and no scope from there on has the name in front of it. -/
def Sees (log : List Binding) (name : String) (changed level : Nat) : Prop :=
  changed ≤ level ∧ ∀ between, changed < between → between ≤ level → latest log between name = none

variable {log : List Binding} {b : Binding} {level n : Nat} {name : String} {v : Value}

theorem latest_append_same (log : List Binding) (level : Nat) (name : String) (v : Value) :
    latest (log ++ [⟨level, name, v⟩]) level name = some v := by
  simp [latest, List.filter_append]

theorem latest_append_of_ne (h : ¬(b.level = level ∧ b.name = name)) :
    latest (log ++ [b]) level name = latest log level name := by
  rw [latest, List.filter_append, List.filter_cons_of_neg (by simpa using h), List.filter_nil,
    List.append_nil]
  rfl

/-- At a level that nothing was bound at no name has a value. -/
theorem latest_eq_none (h : ∀ b ∈ log, b.level < level) : latest log level name = none := by
  have hnone : (log.filter fun b => b.level = level ∧ b.name = name) = [] := by
    rw [List.filter_eq_nil_iff]
    intro b hb
    have hlt := h b hb
    simp only [decide_eq_true_eq, not_and]
    intro heq
    omega
  rw [latest, hnone]
  rfl

/-- One more binding is found from the scopes that see it. -/
theorem nearest_append_of_sees (h : Sees log name n level) :
    nearest (log ++ [⟨n, name, v⟩]) level name = some v := by
  obtain ⟨hle, hfree⟩ := h
  induction level with
  | zero =>
    obtain rfl : n = 0 := Nat.le_zero.mp hle
    exact latest_append_same log 0 name v
  | succ level ih =>
    rw [nearest]
    by_cases hn : n = level + 1
    · rw [hn, latest_append_same]
      rfl
    · -- the level has no value of its own, so the one further out counts
      have hbelow : n ≤ level := by omega
      rw [latest_append_of_ne (fun h => hn h.1), hfree (level + 1) (by omega) (Nat.le_refl _),
        Option.none_or]
      exact ih hbelow fun between hlt hbetween => hfree between hlt (by omega)

/-- All other lookups find what they found before. -/
theorem nearest_append_of_not_sees (h : ¬(b.name = name ∧ Sees log name b.level level)) :
    nearest (log ++ [b]) level name = nearest log level name := by
  induction level with
  | zero =>
    refine latest_append_of_ne fun ⟨hlevel, hname⟩ => h ⟨hname, Nat.le_of_eq hlevel, ?_⟩
    intro between hlt hle
    omega
  | succ level ih =>
    rw [nearest, nearest]
    by_cases hself : b.level = level + 1 ∧ b.name = name
    · refine absurd ⟨hself.2, Nat.le_of_eq hself.1, ?_⟩ h
      intro between hlt hle
      omega
    rw [latest_append_of_ne hself]
    cases hown : latest log (level + 1) name with
    | some w => rfl
    | none =>
      rw [Option.none_or, Option.none_or]
      refine ih fun ⟨hname, hle, hfree⟩ => h ⟨hname, Nat.le_succ_of_le hle, ?_⟩
      intro between hlt hbetween
      -- the level itself has no binding of the name, or it would have been the nearest
      by_cases hlast : between = level + 1
      · rw [hlast]
        exact hown
      · exact hfree between hlt (by omega)

/-! ### Chains -/

/-- `Agrees log scopes`: each scope has the values that were bound last at its level. -/
def Agrees (log : List Binding) : List Scope → Prop
  | [] => True
  | scope :: outer => (∀ name, scope.get? name = latest log outer.length name) ∧ Agrees log outer

variable {scopes : List Scope} {e e' view : Env} {k : Nat}

theorem Agrees.drop (h : Agrees log scopes) (k : Nat) : Agrees log (scopes.drop k) := by
  induction k generalizing scopes with
  | zero => exact h
  | succ k ih =>
    cases scopes with
    | nil => exact h
    | cons scope outer => exact ih h.2

/-- A lookup goes outwards level by level. -/
theorem Agrees.get? (h : Agrees log e.scopes) (name : String) :
    e.get? name = nearest log e.level name := by
  obtain ⟨inner, outer, marks⟩ := e
  show (inner :: outer).findSome? (·.get? name) = nearest log outer.length name
  induction outer generalizing inner with
  | nil =>
    obtain ⟨hown, -⟩ := h
    rw [List.findSome?_cons, hown, List.findSome?_nil]
    show _ = latest log 0 name
    cases latest log 0 name <;> rfl
  | cons scope outer ih =>
    obtain ⟨hown, houter⟩ := h
    rw [List.findSome?_cons, hown, ih scope houter]
    show _ = (latest log (outer.length + 1) name).or (nearest log outer.length name)
    cases latest log (outer.length + 1) name <;> rfl

/-- What is bound further inside does not matter to scopes further out. -/
theorem Agrees.append (h : Agrees log scopes) (hb : scopes.length ≤ b.level) :
    Agrees (log ++ [b]) scopes := by
  induction scopes with
  | nil => trivial
  | cons scope outer ih =>
    obtain ⟨hown, houter⟩ := h
    rw [List.length_cons] at hb
    refine ⟨fun name => ?_, ih houter (by omega)⟩
    rw [hown, latest_append_of_ne]
    intro hsame
    omega

/-- Binding a name in one scope of the chain is one more binding at its level. -/
theorem Agrees.bound (h : Agrees log scopes) (hk : k < scopes.length) (name : String) (v : Value) :
    Agrees (log ++ [⟨scopes.length - 1 - k, name, v⟩]) (scopes.modify k (·.set name v)) := by
  induction scopes generalizing k with
  | nil => exact absurd hk (Nat.not_lt_zero k)
  | cons scope outer ih =>
    obtain ⟨hown, houter⟩ := h
    cases k with
    | zero =>
      refine ⟨fun other => ?_, houter.append (Nat.le_refl _)⟩
      show (scope.set name v).get? other =
        latest (log ++ [⟨outer.length, name, v⟩]) outer.length other
      by_cases hother : other = name
      · rw [hother, Scope.get?_set_self, latest_append_same]
      · rw [Scope.get?_set_of_ne scope v hother,
          latest_append_of_ne (fun h => hother h.2.symm), hown]
    | succ k =>
      rw [List.length_cons] at hk ⊢
      have hlevel : outer.length + 1 - 1 - (k + 1) = outer.length - 1 - k := by omega
      rw [List.modify_succ_cons, hlevel]
      refine ⟨fun other => ?_, ih houter (by omega)⟩
      rw [List.length_modify, latest_append_of_ne (by simp only; omega), hown]

/-- The bindings that every chain begins with. -/
def rootLog : List Binding :=
  [⟨0, "nil", .nil⟩, ⟨0, "true", .bool true⟩, ⟨0, "false", .bool false⟩]

/-- `Built log e`: the chain `e` was built by enclosing new scopes and by binding the names of
`log`, in this order, each in some scope of the chain as it was then. -/
inductive Built : List Binding → Env → Prop
  | root : Built rootLog {}
  | enclosed {log : List Binding} {e : Env} : Built log e → Built log e.enclosed
  | set {log : List Binding} {e e' : Env} {k : Nat} {name : String} {v : Value} :
      Built log e → e.changeOut? (·.set name v) k = some e' →
      Built (log ++ [⟨e.level - k, name, v⟩]) e'
  /-- The embedding program binds a value as it is adopted. -/
  | hold {log : List Binding} {e e' : Env} {k : Nat} {name : String} {v : Value} :
      Built log e → e.changeOut? (·.hold name v) k = some e' →
      Built (log ++ [⟨e.level - k, name, (v.adopt e.marks).1⟩]) e'

/-- The chain has the bindings of the log, each in one of its scopes. -/
structure Holds (log : List Binding) (e : Env) : Prop where
  agrees : Agrees log e.scopes
  within : ∀ b ∈ log, b.level < e.scopes.length

/-- A new scope has no names yet. -/
theorem Holds.enclosed (h : Holds log e) : Holds log e.enclosed := by
  refine ⟨⟨fun name => ?_, h.agrees⟩, fun b hb => Nat.lt_succ_of_lt (h.within b hb)⟩
  exact (latest_eq_none h.within).symm

theorem Holds.bound {change : Env → Env} (h : Holds log e)
    (hbinds : Env.Binds change name v e.marks) (hchange : e.changeOut? change k = some e') :
    Holds (log ++ [⟨e.level - k, name, v⟩]) e' := by
  have hk := Env.le_level_of_changeOut hchange
  have hscopes := Env.scopes_of_changeOut hbinds hchange
  have hlength : e.scopes.length = e.level + 1 := rfl
  have hagrees := h.agrees.bound (k := k) (by omega) name v
  rw [hlength, Nat.add_sub_cancel] at hagrees
  refine ⟨hscopes ▸ hagrees, ?_⟩
  rw [hscopes, List.length_modify]
  refine List.forall_mem_append.mpr ⟨h.within, List.forall_mem_singleton.mpr ?_⟩
  show e.level - k < e.scopes.length
  omega

/-- The outermost scope is an empty one in which three names were bound. -/
theorem holds_root : Holds rootLog {} := by
  have hempty : Holds [] ⟨[], [], 0⟩ := ⟨⟨fun _ => rfl, trivial⟩, List.forall_mem_nil _⟩
  have hnil : Holds [⟨0, "nil", .nil⟩] ⟨[("nil", .nil)], [], 0⟩ :=
    hempty.bound (k := 0) (Env.binds_set "nil" .nil 0) rfl
  have htrue : Holds [⟨0, "nil", .nil⟩, ⟨0, "true", .bool true⟩]
      ⟨[("nil", .nil), ("true", .bool true)], [], 0⟩ :=
    hnil.bound (k := 0) (Env.binds_set "true" (.bool true) 0) rfl
  exact htrue.bound (k := 0) (Env.binds_set "false" (.bool false) 0) rfl

theorem Built.holds (h : Built log e) : Holds log e := by
  induction h with
  | root => exact holds_root
  | enclosed _ ih => exact ih.enclosed
  | set _ hchange ih => exact ih.bound (Env.binds_set _ _ _) hchange
  | hold _ hchange ih => exact ih.bound (Env.binds_hold _ _ _) hchange

theorem Holds.get? (h : Holds log e) (hk : k ≤ e.level) (hview : view.scopes = e.scopes.drop k)
    (name : String) : view.get? name = nearest log (e.level - k) name := by
  have hagrees : Agrees log view.scopes := hview ▸ h.agrees.drop k
  rw [hagrees.get?, Env.level_of_scopes hk hview]

/-- In a chain of scopes, however it was built, a name has from each scope the value that was
bound last to it at the nearest level, and the visible names are listed once each in ascending
order.  The engine gets these names with the values that they have.  Binding a name in one of the
scopes changes lookups of this name from that scope and from those enclosed in it that do not have
the name in front of it, and no others. -/
theorem names_resolved_outwards {log : List Binding} {e : Env} (h : Built log e) {k : Nat}
    (hk : k ≤ e.level) :
    ∃ view, e.outwards? k = some view ∧ view.level = e.level - k ∧
      (∀ name, view.get? name = nearest log view.level name) ∧
      view.names.Pairwise (· < ·) ∧ (∀ name, name ∈ view.names ↔ (view.get? name).isSome) ∧
      view.hostBindings.map Prod.fst = view.names ∧
      (∀ name, view.hostBindings.lookup name = (view.get? name).map Value.toHost) ∧
      ∀ steps ≤ e.level, ∀ (name : String) (v : Value),
        ∃ e' view', e.changeOut? (·.set name v) steps = some e' ∧ e'.outwards? k = some view' ∧
          (Sees log name (e.level - steps) view.level → view'.get? name = some v) ∧
          ∀ other, ¬(other = name ∧ Sees log name (e.level - steps) view.level) →
            view'.get? other = view.get? other := by
  obtain ⟨view, hview, hscopes⟩ := Env.exists_outwards hk
  have hlevel := Env.level_of_scopes hk hscopes
  have hget : ∀ name, view.get? name = nearest log view.level name := by
    intro name
    rw [hlevel]
    exact h.holds.get? hk hscopes name
  obtain ⟨hkeys, hlookup⟩ := view.hostBindings_visible
  refine ⟨view, hview, hlevel, hget, view.names_ascending, fun _ => Env.mem_names, hkeys,
    hlookup, ?_⟩
  intro steps hsteps name v
  obtain ⟨e', hchange, hmodified⟩ := Env.exists_changeOut (Env.binds_set name v e.marks) hsteps
  have hsame : e'.level = e.level := Env.level_of_modify hmodified
  have hk' : k ≤ e'.level := hsame ▸ hk
  obtain ⟨view', hview', hscopes'⟩ := Env.exists_outwards hk'
  -- the changed chain has one more binding in its log
  have hget' : ∀ other, view'.get? other
      = nearest (log ++ [⟨e.level - steps, name, v⟩]) view.level other := by
    intro other
    rw [(h.set hchange).holds.get? hk' hscopes', hsame, hlevel]
  refine ⟨e', view', hchange, hview', ?_, ?_⟩
  · intro hsees
    rw [hget']
    exact nearest_append_of_sees hsees
  · intro other hother
    rw [hget', hget]
    refine nearest_append_of_not_sees fun ⟨hname, hsees⟩ => hother ⟨hname.symm, ?_⟩
    rw [show name = other from hname]
    exact hsees

/-- One name is bound outside and then inside; later it is bound outside once more, as is another
one.  From inside the inner value of the first name is found and the outer value of the second. -/
theorem names_resolved_outwards_shadowed :
    let log := rootLog ++ [⟨0, "x", .int 1⟩, ⟨1, "x", .int 2⟩, ⟨0, "x", .int 3⟩, ⟨0, "y", .int 4⟩]
    let e : Env := ⟨[("x", .int 2)], [Scope.root ++ [("x", .int 3), ("y", .int 4)]], 0⟩
    Built log e ∧ 0 ≤ e.level ∧
      ∃ view, e.outwards? 0 = some view ∧ view.get? "x" = some (.int 2) ∧
        view.get? "y" = some (.int 4) ∧ "y" ∈ view.names ∧
        view.hostBindings.lookup "y" = some (.int 4) := by
  intro log e
  have hbuilt : Built log e := by
    have hfirst : Built (rootLog ++ [⟨0, "x", .int 1⟩]) ⟨Scope.root ++ [("x", .int 1)], [], 0⟩ :=
      Built.root.set (k := 0) rfl
    have hinner : Built (rootLog ++ [⟨0, "x", .int 1⟩] ++ [⟨1, "x", .int 2⟩])
        ⟨[("x", .int 2)], [Scope.root ++ [("x", .int 1)]], 0⟩ :=
      hfirst.enclosed.set (k := 0) rfl
    have houter : Built (rootLog ++ [⟨0, "x", .int 1⟩] ++ [⟨1, "x", .int 2⟩] ++ [⟨0, "x", .int 3⟩])
        ⟨[("x", .int 2)], [Scope.root ++ [("x", .int 3)]], 0⟩ :=
      hinner.set (k := 1) rfl
    exact houter.set (k := 1) rfl
  have hx : nearest log 1 "x" = some (.int 2) := rfl
  have hy : nearest log 1 "y" = some (.int 4) := rfl
  obtain ⟨view, hview, hlevel, hget, -, hnames, -, hhost, -⟩ :=
    names_resolved_outwards hbuilt (Nat.zero_le e.level)
  have hone : view.level = 1 := hlevel
  rw [hone] at hget
  have hvisible : view.get? "y" = some (.int 4) := (hget "y").trans hy
  refine ⟨hbuilt, Nat.zero_le _, view, hview, (hget "x").trans hx, hvisible, ?_, ?_⟩
  · rw [hnames, hvisible]
    rfl
  · rw [hhost, hvisible, Option.map_some, Value.toHost] <;> nofun

end Scopes

end TextScript
