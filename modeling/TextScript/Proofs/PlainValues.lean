/-
TextScript/Proofs/PlainValues.lean

Values of the language, and how operations on them fail.

`Value.Plain` says that a value is one that the language computes with itself, down to the members
of lists.  Such a value is the same as itself, so it takes no mark, and it always has a text.  All
operations take plain values to plain values, or fail with a report that has no place yet
(`Failure.Loose`), to be given one by the node that asked for them.  There is one exception:
`evaluateEscapes` decodes a text as the body of a literal, and what this fails with has a place
already, counted from the start of that text (`Escaped`).

`Ends good bad r` says of a result or a failure which of either it may be.
-/
import TextScript.Eval
import TextScript.Proofs.Arities
import TextScript.Proofs.Rendering

namespace TextScript

/-! ### Plain values -/

/-- A value that the language itself computes with. -/
inductive Value.Plain : Value → Prop
  | nil : Plain .nil
  | bool (b : Bool) : Plain (.bool b)
  | int (n : Int64) : Plain (.int n)
  | text (t : Text) : Plain (.text t)
  | range (r : Range) : Plain (.range r)
  | list {items : List Value} : (∀ v ∈ items, Plain v) → Plain (.list items)

namespace Value

variable {v : Value} {items : List Value}

theorem sameAll_self (h : ∀ v ∈ items, v.same v = true) : sameAll items items = true := by
  induction items with
  | nil => rw [sameAll]
  | cons v items ih =>
    obtain ⟨hv, hrest⟩ := List.forall_mem_cons.mp h
    rw [sameAll, hv, ih hrest, Bool.and_self]

/-- A plain value is the same as itself, so it needs no mark. -/
theorem Plain.same_self (h : v.Plain) : v.same v = true := by
  induction h with
  | nil => rw [same]
  | bool => simp [same]
  | int => simp [same]
  | text => simp [same]
  | range => simp [same]
  | list _ ih =>
    rw [same]
    exact sameAll_self ih

/-- Settling a plain value changes nothing. -/
theorem Plain.settle_eq (h : v.Plain) (next : Nat) : v.settle next = (v, next) :=
  settle_of_same next h.same_self

theorem Plain.unmarked_eq (h : v.Plain) : v.unmarked = v := by
  cases h <;> rfl

theorem Plain.members (h : (Value.list items).Plain) : ∀ v ∈ items, v.Plain := by
  cases h with
  | list hitems => exact hitems

/-- If all members have a text, the texts of a list can be had. -/
theorem exists_texts (h : ∀ v ∈ items, ∃ t, v.toText = .ok t) : ∃ ts, texts items = .ok ts := by
  induction items with
  | nil => exact ⟨[], by rw [texts]⟩
  | cons v items ih =>
    obtain ⟨⟨t, hv⟩, hrest⟩ := List.forall_mem_cons.mp h
    obtain ⟨ts, hts⟩ := ih hrest
    exact ⟨t.toString :: ts, by rw [texts, hv, hts]; rfl⟩

/-- A plain value has a text. -/
theorem Plain.exists_text (h : v.Plain) : ∃ t, v.toText = .ok t := by
  induction h with
  | nil => exact ⟨_, by rw [toText]⟩
  | bool => exact ⟨_, by rw [toText]⟩
  | int => exact ⟨_, by rw [toText]⟩
  | text => exact ⟨_, by rw [toText]⟩
  | range => exact ⟨_, by rw [toText]⟩
  | list _ ih =>
    obtain ⟨ts, hts⟩ := exists_texts ih
    exact ⟨_, by rw [toText, hts]; rfl⟩

end Value

/-! ### Failures without a place -/

/-- The failure is a report that has no place yet. -/
def Failure.Loose (f : Failure) : Prop :=
  ∃ r, f.report? = some r ∧ r.place.line = 0

namespace Failure

variable {f : Failure} {code : Code}

/-- A report that is made here has no place yet. -/
theorem report_make_line (code : Code) (data : Option Data) :
    (Report.make code data).place.line = 0 := by
  unfold Report.make
  split <;> rfl

theorem loose_make (code : Code) (data : Option Data) : (make code data).Loose := by
  unfold make
  split
  · exact ⟨_, rfl, report_make_line code data⟩
  · exact ⟨_, rfl, report_make_line code data⟩

theorem loose_wrap (code : Code) (f : Failure) (data : Option Data) : (wrap code f data).Loose :=
  ⟨_, rfl, report_make_line code data⟩

theorem loose_simple (cls : FailureClass) (message : String) : (simple cls message).Loose :=
  ⟨_, rfl, rfl⟩

/-- A hint does not give a failure a place. -/
theorem Loose.suggesting (h : f.Loose) (name : String) (available : List String) :
    (f.suggesting name available).Loose := by
  obtain ⟨r, hr, hline⟩ := h
  have hhint : ∀ hint, (f.withHint hint).Loose := by
    intro hint
    cases f with
    | plain m => cases hr
    | coded r' => cases hr; exact ⟨_, rfl, hline⟩
    | wrapped r' c => cases hr; exact ⟨_, rfl, hline⟩
  unfold Failure.suggesting
  split
  · split
    · exact ⟨r, hr, hline⟩
    · exact hhint _
  · exact ⟨r, hr, hline⟩

theorem loose_unknownMethod (name kind : String) (available : List String) :
    (unknownMethod name kind available).Loose :=
  (loose_make _ _).suggesting _ _

theorem loose_undefinedName (name : String) (available : List String) :
    (undefinedName name available).Loose :=
  (loose_make _ _).suggesting _ _

theorem loose_argumentType (function expected got : String) :
    (argumentType function expected got).Loose :=
  loose_make _ _

/-- A failure that is loose stays so when more is said of it. -/
theorem Loose.ensure (h : f.Loose) (code : Code) (data : Data) : (f.ensure code data).Loose := by
  unfold Failure.ensure
  split
  · exact h
  · exact loose_wrap _ _ _

/-- A failure without a place takes the place it is given. -/
theorem Loose.placeAt (h : f.Loose) {p : Position} (hp : 0 < p.line) :
    ∃ r, (f.placeAt p).report? = some r ∧ r.place = p := by
  obtain ⟨r, hr, hline⟩ := h
  have hplaced :
      (if r.place.line = 0 ∧ 0 < p.line then { r with place := p } else r).place = p := by
    rw [if_pos ⟨hline, hp⟩]
  cases f with
  | plain m => cases hr
  | coded r' => cases hr; exact ⟨_, rfl, hplaced⟩
  | wrapped r' c => cases hr; exact ⟨_, rfl, hplaced⟩

end Failure

/-! ### Results and failures -/

/-- The result is one of `good`, or the failure one of `bad`. -/
def Ends {α : Type} (good : α → Prop) (bad : Failure → Prop) : Except Failure α → Prop
  | .ok a => good a
  | .error f => bad f

section Ends

variable {α β : Type} {good : α → Prop} {better : β → Prop} {bad worse : Failure → Prop}
variable {r : Except Failure α}

/-- Failures may be judged by less. -/
theorem Ends.mono (h : Ends good bad r) (hbad : ∀ f, bad f → worse f) : Ends good worse r := by
  cases r with
  | error f => exact hbad f h
  | ok a => exact h

/-- What goes on from good values ends as what goes on does. -/
theorem Ends.bind {k : α → Except Failure β} (h : Ends good bad r)
    (hk : ∀ a, good a → Ends better bad (k a)) : Ends better bad (r.bind k) := by
  cases r with
  | error f => exact h
  | ok a => exact hk a h

theorem Ends.map {g : α → β} (h : Ends good bad r) (hg : ∀ a, good a → better (g a)) :
    Ends better bad (r.map g) := by
  cases r with
  | error f => exact h
  | ok a => exact hg a h

/-- A loop fails as one of its turns does. -/
theorem foldlM_ends {γ : Type} {k : γ → β → Except Failure γ} {bs : List β}
    (hk : ∀ c, ∀ b ∈ bs, Ends (fun _ => True) bad (k c b)) (c : γ) :
    Ends (fun _ => True) bad (bs.foldlM k c) := by
  induction bs generalizing c with
  | nil => exact trivial
  | cons b bs ih =>
    rw [List.foldlM_cons]
    exact (hk c b List.mem_cons_self).bind fun c _ =>
      ih (fun c b hb => hk c b (List.mem_cons_of_mem _ hb)) c

end Ends

/-- What is found under a key is an entry. -/
theorem mem_of_lookup {κ α : Type} [BEq κ] [LawfulBEq κ] {entries : List (κ × α)} {key : κ} {a : α}
    (h : entries.lookup key = some a) : (key, a) ∈ entries := by
  obtain ⟨before, after, rfl, -⟩ := List.lookup_eq_some_iff.mp h
  exact List.mem_append_right before List.mem_cons_self

/-- A list of plain values. -/
def AllPlain (vs : List Value) : Prop :=
  ∀ v ∈ vs, v.Plain

/-! ### Conversions -/

namespace Capabilities

variable {v : Value}

/-- Every plain value has a text. -/
theorem exists_textOf (h : v.Plain) : ∃ t, native.textOf v = .ok t := by
  obtain ⟨t, ht⟩ := h.exists_text
  exact ⟨t, textOf_ok ht⟩

/-- The members of a plain value are plain. -/
theorem membersOf_ends (h : v.Plain) : Ends AllPlain Failure.Loose (native.membersOf v) := by
  have hloose : ∀ w : Value,
      (w.notEnumerable.ensure .notEnumerable [("Got", .text v.kind)]).Loose :=
    fun w => (Failure.loose_make _ _).ensure _ _
  cases h with
  | list hitems => exact hitems
  | nil => exact hloose _
  | bool => exact hloose _
  | int => exact hloose _
  | text => exact hloose _
  | range => exact hloose _

/-- The halves of a plain value are plain. -/
theorem halvesOf_ends (h : v.Plain) :
    Ends (fun halves => halves.1.Plain ∧ halves.2.Plain) Failure.Loose (native.halvesOf v) := by
  have hloose : ∀ w : Value, (w.notAPair.ensure .notAPair [("Got", .text v.kind)]).Loose :=
    fun w => (Failure.loose_make _ _).ensure _ _
  cases h with
  | @list items hitems =>
    -- only a list of two has halves
    match items, hitems with
    | [], _ => exact hloose _
    | [_], _ => exact hloose _
    | [a, b], hitems => exact ⟨hitems a (by simp), hitems b (by simp)⟩
    | _ :: _ :: _ :: _, _ => exact hloose _
  | nil => exact hloose _
  | bool => exact hloose _
  | int => exact hloose _
  | text => exact hloose _
  | range => exact hloose _

/-- Plain values can be concatenated. -/
theorem exists_concatenate {vs : List Value} (h : AllPlain vs) :
    ∃ t, native.concatenate vs = .ok t := by
  have htexts : ∃ ts, vs.mapM native.textOf = .ok ts := by
    induction vs with
    | nil => exact ⟨[], rfl⟩
    | cons v vs ih =>
      obtain ⟨hv, hvs⟩ := List.forall_mem_cons.mp h
      obtain ⟨t, ht⟩ := exists_textOf hv
      obtain ⟨ts, hts⟩ := ih hvs
      exact ⟨t :: ts, by rw [List.mapM_cons, ht, hts]; rfl⟩
  obtain ⟨ts, hts⟩ := htexts
  exact ⟨Text.concat ts, by rw [concatenate, hts]; rfl⟩

end Capabilities

/-! ### Templates -/

namespace Engine

variable {e : Engine} {args : List Value} {src : List Int} {v : Value}

theorem checkSize_ends (e : Engine) (o : Output) :
    Ends (fun _ => True) Failure.Loose (e.checkSize o) := by
  unfold checkSize
  split
  · exact Failure.loose_make _ _
  · exact trivial

/-- An argument taken from plain ones is plain. -/
theorem nextArg_ends (h : AllPlain args) (used : Nat) (spelling : List Int) :
    Ends Value.Plain Failure.Loose (nextArg args used spelling) := by
  unfold nextArg
  split
  · next v hv => exact h v (List.mem_of_getElem? hv)
  · exact Failure.loose_make _ _

/-- An insertion renders a plain value or fails without a place. -/
theorem insert_ends (hcaps : e.caps = .native) (h : v.Plain) (width : Nat) (left : Bool)
    (o : Output) :
    Ends (fun _ => True) Failure.Loose (e.insert v width left o) := by
  obtain ⟨t, ht⟩ := Capabilities.exists_textOf h
  rw [insert, hcaps, ht]
  show Ends _ _ (if _ then _ else if _ then _ else _)
  split
  · exact Failure.loose_make _ _
  · split
    · exact Failure.loose_make _ _
    · exact trivial

/-- What a block hands on to its body is plain. -/
theorem bodyArgs_ends (hcaps : e.caps = .native) (mode : BlockMode) (h : v.Plain) :
    Ends AllPlain Failure.Loose (e.bodyArgs mode v) := by
  cases mode with
  | each => exact fun w hw => List.mem_singleton.mp hw ▸ h
  | splat =>
    rw [bodyArgs, hcaps]
    exact Capabilities.membersOf_ends h
  | pairs =>
    rw [bodyArgs, hcaps]
    refine (Capabilities.halvesOf_ends h).map fun halves hhalves => ?_
    exact List.forall_mem_cons.mpr ⟨hhalves.1, List.forall_mem_singleton.mpr hhalves.2⟩

/-- Rendering a template with plain values never fails at a place. -/
theorem render_ends (hcaps : e.caps = .native) (src : List Int) (h : AllPlain args) (used : Nat)
    (o : Output) : Ends (fun _ => True) Failure.Loose (e.render src args used o) := by
  induction src using template_induction generalizing args used o with
  | done =>
    rw [render_nil]
    exact (checkSize_ends e o).map fun _ _ => trivial
  | copy src points rest hb ih =>
    rw [render_begins hb]
    exact (checkSize_ends e o).bind fun _ _ => ih h _ _
  | insert src spelling digits left rest hb ih =>
    rw [render_begins hb]
    refine (checkSize_ends e o).bind fun _ _ => (nextArg_ends h used spelling).bind fun v hv => ?_
    exact (insert_ends hcaps hv _ _ _).bind fun o' _ => ih h _ _
  | block src mode spelling body rest hb ihb ih =>
    rw [render_begins hb]
    refine (checkSize_ends e o).bind fun _ _ => (nextArg_ends h used spelling).bind fun v hv => ?_
    rw [hcaps]
    refine (Capabilities.membersOf_ends hv).bind fun members hmembers => ?_
    refine (foldlM_ends (fun o member hmember => ?_) _).bind fun o' _ => ih h _ _
    exact (bodyArgs_ends hcaps mode (hmembers member hmember)).bind fun inner hinner =>
      ihb hinner _ _

/-- Formatting plain values fails without a place, if at all. -/
theorem format_ends (hcaps : e.caps = .native) (tmpl : Text) (h : AllPlain args) :
    Ends (fun _ => True) Failure.Loose (e.format tmpl args).result := by
  rw [format_result]
  exact (render_ends hcaps _ h _ _).map fun _ _ => trivial

end Engine

/-! ### Methods of texts -/

/-- The failure of decoding a text as the body of a literal. -/
def Escaped (f : Failure) : Prop :=
  ∃ t : Text, Escape.decode t.toChars = .error f

namespace TextMethods

variable {args : List Value} {recv : Text}

/-- The failures of a method: a report without a place, or what `evaluateEscapes` fails with. -/
def Fails (name : String) (f : Failure) : Prop :=
  f.Loose ∨ name = "evaluateEscapes" ∧ Escaped f

/-- All methods but one fail without a place. -/
theorem Fails.loose {name : String} {f : Failure} (h : Fails name f)
    (hname : name ≠ "evaluateEscapes") : f.Loose :=
  h.resolve_right fun ⟨heq, _⟩ => hname heq

/-- A method that takes plain values to a plain value, or fails as its name allows. -/
def Sound (name : String) (m : Method) : Prop :=
  ∀ (engine : Engine) (recv : Text) (args : List Value), engine.caps = .native → AllPlain args →
    Arity.admits m.arity args.length = true →
    Ends Value.Plain (Fails name) (m.run engine recv args).result

theorem admits_zero_one {n : Nat} (h : Arity.admits "1" n = true) : 0 < n := by
  have hone : n = 1 := (Arity.admits_exact (d := ['1']) ⟨nofun, by simp, rfl⟩ (by decide)).mp h
  omega

theorem admits_two {n : Nat} (h : Arity.admits "2" n = true) : 1 < n := by
  have htwo : n = 2 := (Arity.admits_exact (d := ['2']) ⟨nofun, by simp, rfl⟩ (by decide)).mp h
  omega

/-- An argument that was given is found. -/
theorem arg_ends {i : Nat} (h : AllPlain args) (hi : i < args.length) {bad : Failure → Prop} :
    Ends Value.Plain bad (arg args i).result := by
  have hget : args[i]? = some args[i] := List.getElem?_eq_getElem hi
  rw [arg, hget]
  exact h _ (List.getElem_mem hi)

/-- An argument that was given is a text, or the failure has no place. -/
theorem textArg_ends {i : Nat} (method : String) (h : AllPlain args) (hi : i < args.length) :
    Ends (fun _ => True) Failure.Loose (textArg arg method args i).result := by
  rw [textArg, Traced.result_bind]
  refine (arg_ends h hi).bind fun v _ => ?_
  split
  · exact trivial
  · exact Failure.loose_argumentType _ _ _

theorem compareTo_plain (recv : Text) (v : Value) : (compareTo recv v).Plain := by
  unfold compareTo
  split
  · exact .int _
  · exact .nil

/-- Indexing comes to a plain value. -/
theorem indexBy_ends (recv : Text) (v : Value) :
    Ends Value.Plain Failure.Loose (indexBy recv v) := by
  have hpoint : ∀ i, (((recv.at? i).map fun n => Value.int (Int64.ofInt n)).getD .nil).Plain := by
    intro i
    cases recv.at? i with
    | none => exact .nil
    | some n => exact .int _
  unfold indexBy
  split
  · exact hpoint _
  · exact hpoint _
  · exact .text _
  · exact Failure.loose_argumentType _ _ _

theorem categoryOf_ends (recv : Text) : Ends Value.Plain Failure.Loose (categoryOf recv) := by
  unfold categoryOf
  split
  · exact .text _
  · exact Failure.loose_wrap _ _ _

/-- The separator of a split is a text, or the failure has no place. -/
theorem separator_ends (h : AllPlain args) :
    Ends (fun _ => True) Failure.Loose (separator arg args).result := by
  unfold separator
  split
  · next hone => exact textArg_ends "split" h (by omega)
  · exact trivial

/-- A method without arguments is sound if what it comes to is plain. -/
theorem sound_plain (name description : String) {g : Text → Value} (hg : ∀ t, (g t).Plain) :
    Sound name (plain description g) :=
  fun _ recv _ _ _ _ => hg recv

/-- A method is sound if it fails without a place. -/
theorem sound_of_loose {name : String} {m : Method}
    (h : ∀ (engine : Engine) (recv : Text) (args : List Value), engine.caps = .native →
      AllPlain args →
      Arity.admits m.arity args.length = true →
      Ends Value.Plain Failure.Loose (m.run engine recv args).result) : Sound name m :=
  fun engine recv args hcaps hargs harity =>
    (h engine recv args hcaps hargs harity).mono fun _ hf => .inl hf

/-- A method of one argument. -/
theorem sound_one {name description : String} {g : Text → Value → Except Failure Value}
    (hg : ∀ recv v, Ends Value.Plain Failure.Loose (g recv v)) :
    Sound name
      { arity := "1", description
        run := fun _ recv args => do .lift (g recv (← arg args 0)) } := by
  refine sound_of_loose fun _ recv args _ hargs harity => ?_
  rw [Traced.result_bind]
  exact (arg_ends hargs (admits_zero_one harity)).bind fun v _ => hg recv v

/-- A method of two texts. -/
theorem sound_two {name description : String} {g : Text → Text → Text → Text} :
    Sound name
      { arity := "2", description
        run := fun _ recv args => do
          let old ← textArg arg name args 0
          let new ← textArg arg name args 1
          return .text (g recv old new) } := by
  refine sound_of_loose fun _ recv args _ hargs harity => ?_
  have htwo := admits_two harity
  simp only [Traced.result_bind]
  refine (textArg_ends name hargs (by omega)).bind fun old _ => ?_
  exact (textArg_ends name hargs (by omega)).bind fun new _ => .text _

/-- All methods of texts take plain values to plain values, or fail as their names allow. -/
theorem table_sound (casing : Casing) : ∀ entry ∈ table casing, Sound entry.1 entry.2 := by
  simp only [table, methods, List.forall_mem_cons]
  refine ⟨sound_one fun _ _ => .bool _, sound_one fun _ _ => .bool _,
    sound_one fun recv v => compareTo_plain recv v, sound_plain _ _ fun _ => .bool _,
    sound_plain _ _ fun _ => .int _, sound_one indexBy_ends, ?format,
    sound_plain _ _ fun _ => .int _, sound_plain _ _ .text, sound_plain _ _ fun _ => .text _,
    sound_plain _ _ fun _ => .text _, sound_plain _ _ fun _ => .text _,
    sound_plain _ _ fun _ => .text _, sound_plain _ _ fun _ => .text _,
    ?split, sound_two, sound_two, sound_plain _ _ fun _ => .text _, ?category, ?escapes,
    List.forall_mem_nil _⟩
  case format =>
    refine sound_of_loose fun engine recv args hcaps hargs _ => ?_
    rw [Traced.result_bind]
    exact (Engine.format_ends hcaps recv hargs).bind fun t _ => .text t
  case split =>
    refine sound_of_loose fun _ recv args _ hargs _ => ?_
    rw [Traced.result_bind]
    refine (separator_ends hargs).bind fun sep _ => .list fun v hv => ?_
    obtain ⟨t, -, rfl⟩ := List.mem_map.mp hv
    exact .text t
  case category => exact sound_of_loose fun _ recv _ _ _ _ => categoryOf_ends recv
  case escapes =>
    intro _ recv _ _ _ _
    show Ends _ _ ((Escape.decode recv.toChars).map Value.text)
    cases hdecode : Escape.decode recv.toChars with
    | error f => exact .inr ⟨rfl, recv, hdecode⟩
    | ok t => exact .text t

/-- Sending a message with plain values to a text. -/
theorem send_ends {casing : Casing} {engine : Engine} (hcaps : engine.caps = .native) (recv : Text)
    (name : String) (hargs : AllPlain args) :
    Ends Value.Plain (Fails name) (send casing engine recv name args).result := by
  unfold send MethodTable.dispatch
  split
  · exact .inl (Failure.loose_unknownMethod _ _ _)
  · next m hm =>
    have hmem : (name, m) ∈ table casing := mem_of_lookup hm
    split
    · next harity => exact table_sound casing _ hmem engine recv args hcaps hargs harity
    · exact .inl (Failure.loose_make _ _)

end TextMethods

/-! ### Operators -/

namespace Eval

variable {sv : Services} {l r : Value}

theorem unary_ends (op : UnaryOp) (v : Value) : Ends Value.Plain Failure.Loose (unary op v) := by
  unfold unary
  split
  · exact .bool _
  · exact .int _
  · exact Failure.loose_argumentType _ _ _
  · exact Failure.loose_unknownMethod _ _ _

/-- Operators between integers come to plain values. -/
theorem integers_ends (op : BinaryOp) (a b : Int64) :
    Ends Value.Plain Failure.Loose (integers op a b) := by
  cases op with
  | div =>
    show Ends _ _ (if _ then _ else _)
    split
    · exact Failure.loose_simple _ _
    · exact .int _
  | rem =>
    show Ends _ _ (if _ then _ else _)
    split
    · exact Failure.loose_simple _ _
    · exact .int _
  | add => exact .int _
  | sub => exact .int _
  | mul => exact .int _
  | spaceship => exact .int _
  | lt => exact .bool _
  | gt => exact .bool _
  | lte => exact .bool _
  | gte => exact .bool _
  | range => exact .range _
  | xrange => exact .range _
  | assign => exact Failure.loose_unknownMethod _ _ _
  | or => exact Failure.loose_unknownMethod _ _ _
  | and => exact Failure.loose_unknownMethod _ _ _
  | eq => exact Failure.loose_unknownMethod _ _ _
  | notEq => exact Failure.loose_unknownMethod _ _ _
  | other s => exact Failure.loose_unknownMethod _ _ _

/-- Operators on texts come to plain values. -/
theorem textWith_ends (hcaps : sv.formatter.caps = .native) (op : BinaryOp) (t : Text)
    (h : r.Plain) :
    Ends Value.Plain Failure.Loose (textWith sv op t r).result := by
  have hsend : op.symbol ≠ "evaluateEscapes" →
      Ends Value.Plain Failure.Loose
        (TextMethods.send sv.casing sv.formatter t op.symbol [r]).result := by
    intro hname
    have hargs : AllPlain [r] := List.forall_mem_singleton.mpr h
    exact (TextMethods.send_ends hcaps t op.symbol hargs).mono fun f hf => hf.loose hname
  cases op with
  | eq => exact hsend (by decide)
  | notEq => exact hsend (by decide)
  | spaceship => exact hsend (by decide)
  | lt | gt | lte | gte =>
    cases r with
    | text u => exact .bool _
    | _ => exact Failure.loose_argumentType _ _ _
  | _ => exact Failure.loose_unknownMethod _ _ _

/-- Operators between plain values come to plain values. -/
theorem binary_ends (hcaps : sv.formatter.caps = .native) (op : BinaryOp) (l : Value)
    (hr : r.Plain) :
    Ends Value.Plain Failure.Loose (binary sv op l r).result := by
  unfold binary
  split
  · exact textWith_ends hcaps op _ hr
  · exact .bool _
  · exact .bool _
  · exact integers_ends op _ _
  · exact Failure.loose_argumentType _ _ _
  · exact Failure.loose_argumentType _ _ _

/-- What an index picks is a member. -/
theorem mem_of_pick? {i : Int64} {items : List Value} {v : Value}
    (h : Range.pick? i items = some v) : v ∈ items := by
  unfold Range.pick? at h
  split at h
  · cases h
  · exact List.mem_of_getElem? h

/-- What a range selects are members. -/
theorem mem_of_select {range : Range} {items : List Value} {v : Value}
    (h : v ∈ range.select items) : v ∈ items := by
  unfold Range.select at h
  split at h
  · cases h
  · exact List.mem_of_mem_drop (List.mem_of_mem_take h)

/-- Indexing comes to a plain value. -/
theorem indexBy_ends (hcaps : sv.formatter.caps = .native) (hl : l.Plain) (hr : r.Plain) :
    Ends Value.Plain Failure.Loose (indexBy sv l r).result := by
  unfold indexBy
  rw [hl.unmarked_eq]
  split
  · next t =>
    have hargs : AllPlain [r] := List.forall_mem_singleton.mpr hr
    exact (TextMethods.send_ends hcaps t "[]" hargs).mono fun f hf => hf.loose (by decide)
  · next items i =>
    show Value.Plain ((Range.pick? i items).getD .nil)
    cases hpick : Range.pick? i items with
    | none => exact .nil
    | some v => exact hl.members v (mem_of_pick? hpick)
  · next items range => exact .list fun v hv => hl.members v (mem_of_select hv)
  · exact Failure.loose_argumentType _ _ _
  · exact Failure.loose_unknownMethod _ _ _

end Eval

end TextScript
