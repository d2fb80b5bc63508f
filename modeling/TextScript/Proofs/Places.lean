/-
TextScript/Proofs/Places.lean

Places are places in the whole source, however deep the code that they are in.

Code embedded in a literal is a source again, and what it is read as begins at the place that is
handed over with it.  `SourceAt src lead cs` follows this nesting: the characters `cs` are the
source itself or embedded code, and `lead` is all of the source before them.  Every call of the
reader of embedded code gets such code with the place behind its `lead` (`parseLevels_calls`), and
an escape that cannot be decoded is reported at its backslash (`parseLevels_fault`).

That no two calls are for the same place follows from their order: a call for code inside of other
code comes behind it in the source, and before all that follows.  So the characters in front grow
from call to call, and each stage of reading keeps its calls between two bounds.
-/
import TextScript.Proofs.InContext
import TextScript.Proofs.Layout
import TextScript.Proofs.Segments

namespace TextScript

open Lexer Interpolation

variable {limit : Int} {lead cs pre quote front seg code rest src : List Char} {tok : Token}
variable {segs codes : List (List Char)} {reader : Option CodeReader} {f : Failure}
variable {o : ParseOptions} {levels : Nat}

/-! ### Code inside of code -/

/-- `Spotted lead cs pre tok`: in the characters `cs`, which stand behind `lead`, the lexer finds
the token `tok` right behind `pre`. -/
def Spotted (lead cs pre : List Char) (tok : Token) : Prop :=
  ∃ limit spots, Lays lead cs spots ∧ spots.map Prod.snd = tokens limit (behind lead) cs ∧
    (pre, tok) ∈ spots

/-- `SourceAt src lead cs`: behind the characters `lead`, the source `src` has `cs` as itself or
as the code of an interpolation, in one of its literals or in one of the literals in such code. -/
inductive SourceAt (src : List Char) : List Char → List Char → Prop
  | whole : SourceAt src [] src
  | code {lead cs quote front code rest : List Char} {segs codes : List (List Char)} {tok : Token} :
      SourceAt src lead cs → Spotted lead cs quote tok → tok.kind = .text →
      tok.lit.toList = front ++ '#' :: '{' :: (code ++ '}' :: rest) →
      Alternates front segs codes → IsCode code →
      SourceAt src (quote ++ '"' :: (front ++ ['#', '{'])) code

/-- `LiteralAt src quote tok`: behind the characters `quote`, the source or code embedded in it
has the literal of the token `tok`. -/
def LiteralAt (src quote : List Char) (tok : Token) : Prop :=
  ∃ lead cs, SourceAt src lead cs ∧ Spotted lead cs quote tok ∧ tok.kind = .text

/-- A token stands in the source where it was spotted, spelled as it is written. -/
theorem Spotted.stands (h : Spotted lead cs pre tok) :
    ∃ post, lead ++ cs = pre ++ (tok.written ++ post) := by
  obtain ⟨limit, spots, hlays, -, hmem⟩ := h
  exact hlays.stands hmem

/-- What stands at some place of a source is followed by the rest of it. -/
theorem SourceAt.stands (h : SourceAt src lead cs) : ∃ post, src = lead ++ (cs ++ post) := by
  induction h with
  | whole => exact ⟨[], by simp⟩
  | @code _ _ _ _ _ rest _ _ _ _ hspot hk hlit _ _ ih =>
    obtain ⟨post, rfl⟩ := ih
    obtain ⟨more, hmore⟩ := hspot.stands
    refine ⟨'}' :: (rest ++ '"' :: (more ++ post)), ?_⟩
    rw [← List.append_assoc, hmore, Token.written_text hk, hlit]
    simp

/-- A literal stands behind its quote. -/
theorem LiteralAt.stands (h : LiteralAt src quote tok) :
    ∃ post, src = quote ++ '"' :: (tok.lit.toList ++ post) := by
  obtain ⟨lead, cs, hsource, hspot, hk⟩ := h
  obtain ⟨post, rfl⟩ := hsource.stands
  obtain ⟨more, hmore⟩ := hspot.stands
  refine ⟨'"' :: (more ++ post), ?_⟩
  rw [← List.append_assoc, hmore, Token.written_text hk]
  simp

/-! ### What is in front of a segment -/

/-- One more code and segment at the end. -/
theorem Alternates.concat (h : Alternates front segs codes) (hc : IsCode code)
    (hs : IsSegment seg) :
    Alternates (front ++ '#' :: '{' :: (code ++ '}' :: seg)) (segs ++ [seg]) (codes ++ [code]) := by
  induction h with
  | last hfirst => exact .block hfirst hc (.last hs)
  | block hfirst hcode _ ih =>
    have hmore := Alternates.block hfirst hcode ih
    simpa using hmore

/-- A segment may follow the characters `front`, which are blocks and the segments before them. -/
def Front (front : List Char) : Prop :=
  ∀ seg, IsSegment seg → ∃ segs codes, Alternates (front ++ seg) segs codes

theorem front_nil : Front [] := fun _ hs => ⟨_, _, .last hs⟩

/-- A block of a literal and what is before it are the front of what follows. -/
theorem Front.block (h : Front front) (hs : IsSegment seg) (hc : IsCode code) :
    Front (front ++ (seg ++ '#' :: '{' :: (code ++ ['}']))) := by
  intro next hnext
  obtain ⟨segs, codes, halt⟩ := h seg hs
  have hmore := halt.concat hc hnext
  exact ⟨_, _, by simpa using hmore⟩

/-! ### Calls -/

/-- The code and the place that were handed over, if that is the event. -/
def Event.handed? : Event → Option (String × Position)
  | .codeHanded code place => some (code, place)
  | _ => none

/-- `Calls src lo hi events calls`: the codes handed over are those of `calls`, each behind the
characters that it is paired with.  These grow from call to call, from `lo` characters to less
than `hi`. -/
structure Calls (src : List Char) (lo hi : Nat) (events : List Event)
    (calls : List (List Char × List Char)) : Prop where
  handed : events.filterMap Event.handed? =
    calls.map fun call => (String.ofList call.2, behind call.1)
  grow : calls.Pairwise fun call next => call.1.length < next.1.length
  source : ∀ call ∈ calls, SourceAt src call.1 call.2
  bounds : ∀ call ∈ calls, lo ≤ call.1.length ∧ call.1.length < hi

/-- Some calls that grow from `lo` characters to less than `hi` are all that the events hand
over. -/
def CallsWithin (src : List Char) (lo hi : Nat) (events : List Event) : Prop :=
  ∃ calls, Calls src lo hi events calls

variable {lo mid hi : Nat} {events more : List Event}

theorem callsWithin_nil (src : List Char) (lo hi : Nat) : CallsWithin src lo hi [] :=
  ⟨[], rfl, .nil, by simp, by simp⟩

/-- Calls of one stretch and then of the next one. -/
theorem CallsWithin.append (h : CallsWithin src lo mid events) (h' : CallsWithin src mid hi more)
    (hlo : lo ≤ mid) (hhi : mid ≤ hi) : CallsWithin src lo hi (events ++ more) := by
  obtain ⟨calls, h⟩ := h
  obtain ⟨next, h'⟩ := h'
  refine ⟨calls ++ next, ?_, ?_, ?_, ?_⟩
  · rw [List.filterMap_append, h.handed, h'.handed, List.map_append]
  · refine List.pairwise_append.mpr ⟨h.grow, h'.grow, fun a ha b hb => ?_⟩
    have hbefore := (h.bounds a ha).2
    have hafter := (h'.bounds b hb).1
    omega
  · intro call hcall
    rcases List.mem_append.mp hcall with hcall | hcall
    · exact h.source call hcall
    · exact h'.source call hcall
  · intro call hcall
    rcases List.mem_append.mp hcall with hcall | hcall
    · have hbounds := h.bounds call hcall
      omega
    · have hbounds := h'.bounds call hcall
      omega

/-- Calls within a stretch are within a longer one. -/
theorem CallsWithin.mono {lo' hi' : Nat} (h : CallsWithin src lo hi events) (hlo : lo' ≤ lo)
    (hhi : hi ≤ hi') : CallsWithin src lo' hi' events := by
  obtain ⟨calls, h⟩ := h
  refine ⟨calls, h.handed, h.grow, h.source, fun call hcall => ?_⟩
  have hbounds := h.bounds call hcall
  omega

/-- Of two computations one after another the second makes its calls only if the first has a
result. -/
theorem CallsWithin.andThen {α β : Type} {x : Traced α} {g : α → Traced β}
    (h : CallsWithin src lo mid x.events)
    (h' : ∀ a, x.result = .ok a → CallsWithin src mid hi (g a).events) (hlo : lo ≤ mid)
    (hhi : mid ≤ hi) :
    CallsWithin src lo hi (x.andThen g).events := by
  unfold Traced.andThen
  cases hx : x.result with
  | error f => exact h.mono (Nat.le_refl _) hhi
  | ok a => exact h.append (h' a hx) hlo hhi

/-- A code that is handed on is called for at the place where it stands. -/
theorem callsWithin_handed (h : SourceAt src lead code) :
    CallsWithin src lead.length (lead.length + 1)
      [.codeHanded (String.ofList code) (behind lead)] := by
  refine ⟨[(lead, code)], rfl, List.pairwise_singleton _ _, ?_, ?_⟩
  · intro call hcall
    rw [List.mem_singleton.mp hcall]
    exact h
  · intro call hcall
    rw [List.mem_singleton.mp hcall]
    exact ⟨Nat.le_refl _, Nat.lt_succ_self _⟩

/-- Events that hand nothing over. -/
def Quiet (events : List Event) : Prop :=
  ∀ e ∈ events, e.handed? = none

/-- Where nothing is handed on there is nothing to place. -/
theorem Quiet.callsWithin (h : Quiet events) (src : List Char) (lo hi : Nat) :
    CallsWithin src lo hi events := by
  refine ⟨[], ?_, .nil, by simp, by simp⟩
  rw [List.map_nil, List.filterMap_eq_nil_iff]
  exact h

/-- The reader of embedded code itself makes calls only for code further inside. -/
def ReaderCalls (src : List Char) (reader : Option CodeReader) : Prop :=
  ∀ read, reader = some read → ∀ lead code, SourceAt src lead code →
    CallsWithin src (lead.length + 1) (lead.length + code.length + 1)
      (read (String.ofList code) (behind lead)).events

/-! ### One literal -/

/-- All calls for a code and from inside of it are within its stretch. -/
theorem readCode_calls (tok : Token) (hr : ReaderCalls src reader) (h : SourceAt src lead code) :
    CallsWithin src lead.length (lead.length + code.length + 1)
      (readCode reader tok (String.ofList code) (behind lead)).events := by
  unfold readCode
  split
  · exact callsWithin_nil _ _ _
  · cases reader with
    | none => exact callsWithin_nil _ _ _
    | some read =>
      exact (callsWithin_handed h).append (hr read rfl lead code h) (by omega) (by omega)

/-- A code inside of a literal stands in the source. -/
theorem LiteralAt.sourceAt (h : LiteralAt src quote tok)
    (hlit : tok.lit.toList = front ++ (seg ++ '#' :: '{' :: (code ++ '}' :: rest)))
    (hfront : Front front) (hs : IsSegment seg) (hc : IsCode code) :
    SourceAt src (quote ++ '"' :: (front ++ (seg ++ ['#', '{']))) code := by
  obtain ⟨lead, cs, hsource, hspot, hk⟩ := h
  obtain ⟨segs, codes, halt⟩ := hfront seg hs
  have hbody : tok.lit.toList = (front ++ seg) ++ '#' :: '{' :: (code ++ '}' :: rest) := by
    rw [hlit, List.append_assoc]
  have hcode := hsource.code hspot hk hbody halt hc
  simpa using hcode

/-- The calls for a body, or for what is left of it behind its front. -/
theorem readParts_calls (limit : Int) (hr : ReaderCalls src reader) (h : LiteralAt src quote tok)
    (hlit : tok.lit.toList = front ++ cs) (hfront : Front front) :
    CallsWithin src (quote ++ '"' :: front).length ((quote ++ '"' :: front).length + cs.length)
      (readParts reader limit tok (behind (quote ++ '"' :: front)) cs).events := by
  induction cs using body_induction limit generalizing front with
  | last seg hsize =>
    rw [readParts_segment hsize]
    exact (callsWithin_nil _ _ _).andThen (fun _ _ => callsWithin_nil _ _ _)
      (Nat.le_refl _) (by omega)
  | stuck seg rest n why hsize hscan =>
    rw [readParts_stuck hsize hscan]
    exact (callsWithin_nil _ _ _).andThen (fun _ _ => callsWithin_nil _ _ _)
      (Nat.le_refl _) (by omega)
  | block seg code rest hsize hscan ih =>
    rw [readParts_closed hsize hscan]
    refine (callsWithin_nil _ _ _).andThen (fun v hv => ?_) (Nat.le_refl _) (by omega)
    have hs := isSegment_of_decodeAt hsize hv
    have hc := isCode_of_closed hscan
    have hcode := readCode_calls tok hr (h.sourceAt hlit hfront hs hc)
    have hrest := ih (by rw [hlit]; simp) (hfront.block hs hc)
    -- the code and what follows its brace stand behind more and more of the literal
    have hplace : (behind (quote ++ '"' :: front)).advance (seg ++ ['#', '{'])
        = behind (quote ++ '"' :: (front ++ (seg ++ ['#', '{']))) := by simp
    have hnext : (behind (quote ++ '"' :: (front ++ (seg ++ ['#', '{'])))).advance (code ++ ['}'])
        = behind (quote ++ '"' :: (front ++ (seg ++ '#' :: '{' :: (code ++ ['}'])))) := by simp
    rw [hplace, hnext]
    simp only [List.length_append, List.length_cons, List.length_nil] at hcode hrest ⊢
    refine (hcode.mono (by omega) (Nat.le_refl _)).andThen (fun e _ => ?_) (by omega) (by omega)
    refine CallsWithin.andThen (hrest.mono (by omega) (by omega))
      (fun parts _ => callsWithin_nil _ _ _) (by omega) (Nat.le_refl _)

/-- All calls of a literal are within it. -/
theorem read_calls (limit : Int) (hr : ReaderCalls src reader) (h : LiteralAt src quote tok)
    (hplace : tok.place = behind quote) :
    CallsWithin src (quote.length + 1) (quote.length + 1 + tok.lit.toList.length)
      (Interpolation.read reader limit tok).events := by
  have hnext : tok.place.next = behind (quote ++ ['"']) := by
    rw [hplace, ← behind_advance]
    rfl
  have hparts := readParts_calls limit hr h (List.nil_append _).symm front_nil
  rw [Interpolation.read, hnext]
  simp only [List.length_append, List.length_cons, List.length_nil] at hparts
  refine hparts.andThen (fun parts _ => ?_) (by omega) (Nat.le_refl _)
  split
  · exact callsWithin_nil _ _ _
  · have hquiet : Quiet [Event.literalRead tok.place (parts.length / 2)] := by
      intro e he
      rw [List.mem_singleton.mp he]
      rfl
    exact hquiet.callsWithin _ _ _

/-! ### What a run of the parser reports -/

namespace ParseState

variable {literal : Token → Traced Expr} {s : ParseState} {e : Expr}

theorem reject_events (more : String) : (s.reject tok more).events = s.events := by
  unfold reject
  split <;> rfl

theorem close_events (last : Option Expr) : (s.close last).events = s.events := by
  unfold close
  split <;> rfl

theorem finish_events : (s.finish e tok).events = s.events := by
  obtain ⟨own, e', hred⟩ : ∃ own e', reduce Strength.lowest s.stack e = (own, e') := ⟨_, _, rfl⟩
  cases own with
  | nil =>
    simp only [finish, hred]
    split
    · rfl
    · exact reject_events _
  | cons top rest =>
    rw [finish_top hred]
    split
    · rfl
    · split
      · exact close_events _
      · exact reject_events _

theorem extend_events : (s.extend e tok).events = s.events := by
  unfold extend
  split
  · dsimp only
    split <;> rfl
  · split
    · rfl
    · rfl
    · exact finish_events

/-- Only a literal reports anything at the beginning of an operand. -/
theorem begin_events : (s.begin literal tok).events = s.events ∨
    tok.kind = .text ∧ (s.begin literal tok).events = s.events ++ (literal tok).events := by
  unfold begin
  split
  · exact .inl rfl
  · -- a numeral, with or without a sign on the stack
    refine .inl ?_
    unfold beginInteger
    split
    · rfl
    · split <;> rfl
  · next hk =>
    refine .inr ⟨hk, ?_⟩
    unfold beginText
    dsimp only
    split <;> rfl
  · exact .inl rfl
  · exact .inl rfl
  · exact .inl rfl
  · exact .inl rfl
  · refine .inl ?_
    split
    · split
      · rfl
      · exact reject_events _
    · split
      · exact close_events _
      · exact reject_events _

/-- A step reports what its literal reports, or nothing. -/
theorem step_events (literal : Token → Traced Expr) (s : ParseState) (tok : Token) :
    (s.step literal tok).events = s.events ∨
    tok.kind = .text ∧ (s.step literal tok).events = s.events ++ (literal tok).events := by
  unfold step
  split
  · exact .inl rfl
  · split
    · exact .inl rfl
    · split
      · exact begin_events
      · split
        · exact .inl rfl
        · exact .inl extend_events
      · exact .inl extend_events
      · exact .inl rfl

end ParseState

/-! ### Calls along a source -/

/-- The calls of a run over tokens in a row. -/
theorem foldl_calls {spots : List (List Char × Token)} (limit : Int) (hr : ReaderCalls src reader)
    (hlays : Lays lead cs spots) (hplaces : ∀ spot ∈ spots, spot.2.place = behind spot.1)
    (hlit : ∀ spot ∈ spots, spot.2.kind = .text → LiteralAt src spot.1 spot.2) (s : ParseState) :
    ∃ more,
      ((spots.map Prod.snd).foldl (ParseState.step (Interpolation.read reader limit)) s).events
        = s.events ++ more ∧
      CallsWithin src (lead.length + 1) (lead.length + cs.length + 1) more := by
  induction hlays generalizing s with
  | @last lead gap tok _ hk hempty =>
    refine ⟨[], ?_, callsWithin_nil _ _ _⟩
    rw [List.append_nil]
    rcases ParseState.step_events (Interpolation.read reader limit) s tok with
      hsame | ⟨htext, -⟩
    · exact hsame
    · rw [hk] at htext
      cases htext
  | @next lead gap rest tok spots _ _ _ ih =>
    obtain ⟨more, hmore, hcalls⟩ := ih (fun spot h => hplaces spot (List.mem_cons_of_mem _ h))
      (fun spot h => hlit spot (List.mem_cons_of_mem _ h))
        (s.step (Interpolation.read reader limit) tok)
    rw [List.map_cons, List.foldl_cons, hmore]
    simp only [List.length_append] at hcalls ⊢
    rcases ParseState.step_events (Interpolation.read reader limit) s tok with
      hsame | ⟨htext, hread⟩
    · rw [hsame]
      exact ⟨more, rfl, hcalls.mono (by omega) (by omega)⟩
    · -- the calls of a literal come between its quotes
      have hliteral := read_calls limit hr (hlit _ List.mem_cons_self htext)
        (hplaces _ List.mem_cons_self)
      rw [hread, List.append_assoc]
      simp only [Token.written_text htext, List.length_append, List.length_cons, List.length_nil]
        at hliteral hcalls ⊢
      have hfirst : CallsWithin src (lead.length + 1)
          (lead.length + gap.length + tok.lit.toList.length + 3)
          (Interpolation.read reader limit tok).events :=
        hliteral.mono (by omega) (by omega)
      exact ⟨_, rfl, hfirst.append (hcalls.mono (by omega) (by omega)) (by omega) (by omega)⟩

/-- The options name no reader of embedded code that hands code on. -/
def ParseOptions.HandsNothingOn (o : ParseOptions) : Prop :=
  ∀ read, o.embedded = some read → ∀ code p, Quiet (read code p).events

/-- A token that is a literal stands in the source as one. -/
theorem literalAt_of_tokens {spots : List (List Char × Token)} (h : SourceAt src lead cs)
    (hlays : Lays lead cs spots) (htokens : spots.map Prod.snd = tokens limit (behind lead) cs) :
    ∀ spot ∈ spots, spot.2.kind = .text → LiteralAt src spot.1 spot.2 :=
  fun _ hmem hk => ⟨lead, cs, h, ⟨limit, spots, hlays, htokens, hmem⟩, hk⟩

/-- The calls of a whole run are within the source, in the order of the tokens. -/
theorem run_calls (hr : ReaderCalls src reader) (h : SourceAt src lead cs) :
    CallsWithin src (lead.length + 1) (lead.length + cs.length + 1)
      (ParseState.run (Interpolation.read reader limit)
        (tokens limit (behind lead) cs)).events := by
  obtain ⟨spots, hlays, htokens, hplaces⟩ := tokens_spots limit lead cs
  obtain ⟨more, hmore, hcalls⟩ :=
    foldl_calls limit hr hlays hplaces (literalAt_of_tokens h hlays htokens) {}
  rw [ParseState.run, ← htokens, hmore]
  exact hcalls

theorem single_events (parsed : Parsed) (p : Position) :
    (parsed.single p).events = parsed.events := by
  obtain ⟨program, failure, events⟩ := parsed
  cases failure with
  | some f => rfl
  | none =>
    have hok : (⟨program, none, events⟩ : Parsed).toTraced.result = .ok program := rfl
    rw [Parsed.single, Traced.events_andThen hok]
    show events ++ _ = events
    split <;> exact List.append_nil _

/-- The readers of embedded code at a level: the one that the options name, or the language
itself. -/
theorem reader_cases {read : CodeReader}
    (h : o.embedded.or (Source.levelReader levels o) = some read) :
    o.embedded = some read ∨ o.embedded = none ∧ ∃ fewer, levels = fewer + 1 ∧
      ∀ code p, read code p = (Source.parseLevels fewer o.inner p code.toList).single p := by
  cases ho : o.embedded with
  | some other =>
    rw [ho] at h
    exact .inl h
  | none =>
    rw [ho, Option.none_or] at h
    cases levels with
    | zero => cases h
    | succ fewer =>
      cases h
      exact .inr ⟨rfl, fewer, rfl, fun _ _ => rfl⟩

/-- The calls for a source, or for code embedded in it. -/
theorem parseLevels_calls (levels : Nat) (ho : o.HandsNothingOn) (h : SourceAt src lead cs) :
    CallsWithin src (lead.length + 1) (lead.length + cs.length + 1)
      (Source.parseLevels levels o (behind lead) cs).events := by
  induction levels using Nat.strongRecOn generalizing o lead cs with
  | ind levels ih =>
    rw [parseLevels_run]
    refine run_calls (fun read hread lead code hcode => ?_) h
    rcases reader_cases hread with hother | ⟨-, fewer, rfl, hself⟩
    · exact (ho read hother _ _).callsWithin _ _ _
    · -- the code is a source of its own, one level down
      rw [hself, single_events, String.toList_ofList]
      exact ih fewer (Nat.lt_succ_self fewer) ho hcode

/-! ### Escapes -/

/-- The causes of an escape that cannot be decoded. -/
def Code.ofEscape : List Code :=
  [.unknownEscape, .malformedUnicodeEscape]

/-- `BadEscape src pre fault`: right behind `pre`, in a segment of a literal, a backslash stands
that begins no escape, for the reason `fault`. -/
inductive BadEscape (src : List Char) : List Char → Escape.Fault → Prop
  | intro {quote front rest tail : List Char} {segs codes : List (List Char)} {tok : Token}
      {fault : Escape.Fault} :
      LiteralAt src quote tok → tok.lit.toList = front ++ '\\' :: (rest ++ tail) →
      Alternates front segs codes → Escape.escape rest = .error fault →
      BadEscape src (quote ++ '"' :: front) fault

/-- A bad escape begins with a backslash of the source. -/
theorem BadEscape.stands {fault : Escape.Fault} (h : BadEscape src pre fault) :
    ∃ post, src = pre ++ '\\' :: post := by
  cases h with
  | @intro quote front rest tail segs codes tok _ hliteral hlit =>
    obtain ⟨post, rfl⟩ := hliteral.stands
    exact ⟨rest ++ (tail ++ post), by rw [hlit]; simp⟩

/-- Decoding fails at the first backslash that begins no escape. -/
theorem decodePoints_fault {p : Position} (h : Escape.decodePoints p cs = .error f) :
    ∃ seg rest fault, cs = seg ++ '\\' :: rest ∧ Whole seg ∧ Escape.escape rest = .error fault ∧
      f = fault.failure (p.advance seg) := by
  fun_induction Escape.decodePoints p cs with
  | case1 => cases h
  | case2 p c rest fault hunit =>
    cases h
    unfold Escape.unit at hunit
    split at hunit
    · next hc =>
      subst hc
      exact ⟨[], rest, fault, rfl, .nil, hunit, rfl⟩
    · cases hunit
  | case3 p c rest u hu ih =>
    obtain ⟨seg, after, fault, hcs, hwhole, hescape, rfl⟩ := ih (map_eq_error.mp h)
    refine ⟨(c :: rest).take u.size ++ seg, after, fault, ?_, .unit_append hu hwhole, hescape, ?_⟩
    · rw [List.append_assoc, ← hcs, List.take_append_drop]
    · rw [Position.advance_append]

/-- The other failures of a reader count as none of these causes. -/
theorem makeAt_not_escape {cause bad : Code} (hbad : bad ∈ Code.ofEscape)
    (hcause : cause ∈ Code.unexpectedToken :: Code.ofBalance) (p : Position) (data : Option Data) :
    (Failure.makeAt cause p data).hasCode bad = false := by
  rw [Failure.hasCode_makeAt]
  simp only [Code.ofEscape, Code.ofBalance, List.mem_cons, List.not_mem_nil,
    or_false] at hbad hcause
  rcases hbad with rfl | rfl <;> rcases hcause with rfl | rfl | rfl | rfl <;> rfl

theorem unexpected_not_escape {bad : Code} (hbad : bad ∈ Code.ofEscape) (what : String)
    (p : Position) :
    (Failure.unexpected what p).hasCode bad = false :=
  makeAt_not_escape hbad List.mem_cons_self p _

theorem unbalanced_not_escape {bad : Code} (hbad : bad ∈ Code.ofEscape) (limit : Int) (tok : Token)
    (why : Unbalanced) : (unbalanced limit tok why).hasCode bad = false := by
  cases why with
  | tooDeep => exact makeAt_not_escape hbad (by decide) _ _
  | unterminatedText => exact makeAt_not_escape hbad (by decide) _ _
  | unterminatedInterpolation => exact makeAt_not_escape hbad (by decide) _ _

/-- No token is at fault for an escape. -/
theorem fault_not_escape {bad : Code} {p : Position} (hbad : bad ∈ Code.ofEscape)
    (hmem : tok ∈ tokens limit p src) (hf : tok.fault = some f) : f.hasCode bad = false := by
  rcases mem_tokens hmem with ⟨q, rfl⟩ | ⟨pre, c, cs, q, -, rfl⟩
  · cases hf
  · simp only [token] at hf
    unfold faultOf at hf
    split at hf
    · cases hf
      exact makeAt_not_escape hbad (by decide) _ _
    · cases hf
      exact makeAt_not_escape hbad (by decide) _ _
    · cases hf
      exact makeAt_not_escape hbad (by decide) _ _
    · cases hf
      exact makeAt_not_escape hbad (by decide) _ _
    · cases hf

/-- `Explained src reader f`: the failure is that of a bad escape at its backslash, or what the
reader of embedded code has failed with for code at its place. -/
def Explained (src : List Char) (reader : Option CodeReader) (f : Failure) : Prop :=
  (∃ pre fault, BadEscape src pre fault ∧ f = fault.failure (behind pre)) ∨
    ∃ read lead code, reader = some read ∧ SourceAt src lead code ∧
      (read (String.ofList code) (behind lead)).result = .error f

/-- An escape that breaks off a segment does so in the source. -/
theorem segment_fault (h : LiteralAt src quote tok) (hlit : tok.lit.toList = front ++ (seg ++ rest))
    (hfront : Front front) (hsize : segmentSize (seg ++ rest) = seg.length)
    (herr : Escape.decodeAt (behind (quote ++ '"' :: front)) seg = .error f) :
    ∃ pre fault, BadEscape src pre fault ∧ f = fault.failure (behind pre) := by
  obtain ⟨good, after, fault, rfl, hwhole, hescape, rfl⟩ :=
    decodePoints_fault (map_eq_error.mp herr)
  have hgood : IsSegment good := by
    rw [List.append_assoc] at hsize
    have hle : good.length ≤ segmentSize (good ++ ('\\' :: after ++ rest)) := by
      rw [hsize]
      simp
    exact hwhole.isSegment hle
  obtain ⟨segs, codes, halt⟩ := hfront good hgood
  have hbody : tok.lit.toList = (front ++ good) ++ '\\' :: (after ++ rest) := by
    rw [hlit]
    simp
  refine ⟨quote ++ '"' :: (front ++ good), fault, .intro h hbody halt hescape, ?_⟩
  rw [behind_advance]
  simp

/-- A literal that fails for an escape has that escape in the source. -/
theorem readParts_explained {bad : Code} (hbad : bad ∈ Code.ofEscape) (hf : f.hasCode bad = true)
    (h : LiteralAt src quote tok) (hlit : tok.lit.toList = front ++ cs) (hfront : Front front)
    (herr : (readParts reader limit tok (behind (quote ++ '"' :: front)) cs).result = .error f) :
    Explained src reader f := by
  induction cs using body_induction limit generalizing front with
  | last seg hsize =>
    rw [readParts_segment hsize, Traced.result_andThen, bind_eq_error] at herr
    rcases herr with herr | ⟨v, -, herr⟩
    · rw [← List.append_nil seg] at hlit
      exact .inl (segment_fault h hlit hfront (by rw [List.append_nil]; exact hsize) herr)
    · cases herr
  | stuck seg rest n why hsize hscan =>
    rw [readParts_stuck hsize hscan, Traced.result_andThen, bind_eq_error] at herr
    rcases herr with herr | ⟨v, -, herr⟩
    · exact .inl (segment_fault h hlit hfront hsize herr)
    · cases herr
      rw [unbalanced_not_escape hbad] at hf
      cases hf
  | block seg code rest hsize hscan ih =>
    rw [readParts_closed hsize hscan] at herr
    simp only [Traced.result_andThen, bind_eq_error] at herr
    have hc := isCode_of_closed hscan
    -- in the segment, in the code, or in what follows the block
    rcases herr with herr | ⟨v, hv, hcode | ⟨e, -, hparts | ⟨parts, -, herr⟩⟩⟩
    · exact .inl (segment_fault h hlit hfront hsize herr)
    · have hs := isSegment_of_decodeAt hsize hv
      have hplace : (behind (quote ++ '"' :: front)).advance (seg ++ ['#', '{'])
          = behind (quote ++ '"' :: (front ++ (seg ++ ['#', '{']))) := by simp
      rw [hplace] at hcode
      rcases readCode_error hcode with ⟨what, q, rfl⟩ | ⟨read, hsome, hread⟩
      · rw [unexpected_not_escape hbad] at hf
        cases hf
      · exact .inr ⟨read, _, code, hsome, h.sourceAt hlit hfront hs hc, hread⟩
    · have hs := isSegment_of_decodeAt hsize hv
      refine ih (by rw [hlit]; simp) (hfront.block hs hc) ?_
      simpa using hparts
    · cases herr

/-- So has one that is read from its token. -/
theorem read_explained {bad : Code} (hbad : bad ∈ Code.ofEscape) (hf : f.hasCode bad = true)
    (h : LiteralAt src quote tok) (hplace : tok.place = behind quote)
    (herr : (Interpolation.read reader limit tok).result = .error f) : Explained src reader f := by
  rw [read_error_iff] at herr
  have hnext : tok.place.next = behind (quote ++ ['"']) := by
    rw [hplace, ← behind_advance]
    rfl
  rw [hnext] at herr
  exact readParts_explained hbad hf h (List.nil_append _).symm front_nil herr

/-- A bad escape is reported at its backslash, in a source or in code embedded in it. -/
theorem parseLevels_fault {bad : Code} (hbad : bad ∈ Code.ofEscape) (hf : f.hasCode bad = true)
    (h : SourceAt src lead cs)
    (herr : (Source.parseLevels levels o (behind lead) cs).failure = some f) :
    Explained src o.embedded f := by
  -- code that fails is read with fewer levels, so the induction is on these; everything else that
  -- a source can fail with has another code than an escape
  induction levels using Nat.strongRecOn generalizing o lead cs with
  | ind levels ih =>
    rw [parseLevels_run] at herr
    obtain ⟨tok, hmem, hraise⟩ := ParseState.run_raises herr
    cases hraise with
    | fault hfault =>
      rw [fault_not_escape hbad hmem hfault] at hf
      cases hf
    | unexpected what place =>
      rw [unexpected_not_escape hbad] at hf
      cases hf
    | plain m =>
      simp only [Code.ofEscape, List.mem_cons, List.not_mem_nil, or_false] at hbad
      rcases hbad with rfl | rfl <;> cases hf
    | literal hk hlit =>
      obtain ⟨spots, hlays, htokens, hplaces⟩ := tokens_spots o.limit lead cs
      rw [← htokens] at hmem
      obtain ⟨⟨quote, tok⟩, hspot, rfl⟩ := List.mem_map.mp hmem
      have hliteral := literalAt_of_tokens h hlays htokens _ hspot hk
      rcases read_explained hbad hf hliteral (hplaces _ hspot) hlit with
        hescape | ⟨read, lead', code, hread, hcode, hfail⟩
      · exact .inl hescape
      rcases reader_cases hread with hother | ⟨-, fewer, rfl, hself⟩
      · exact .inr ⟨read, lead', code, hother, hcode, hfail⟩
      · rw [hself, String.toList_ofList] at hfail
        rcases single_error hfail with hfail | ⟨what, q, rfl⟩
        · have hinner : Explained src o.inner.embedded f :=
            ih fewer (Nat.lt_succ_self fewer) hcode hfail
          exact hinner
        · rw [unexpected_not_escape hbad] at hf
          cases hf

/-! ### The whole source -/

/-- The tokens of `cs` lie in it in a row, each at the place that is behind all characters before
it. -/
def PlacedTokens (lead cs : List Char) (toks : List Token) : Prop :=
  ∃ spots, Lays lead cs spots ∧ spots.map Prod.snd = toks ∧
    ∀ spot ∈ spots, spot.2.place = ({} : Position).advance spot.1

/-- Everything is placed in the whole source.  Its tokens, and those of each code in it at
whatever depth, are where they stand; each code is handed on with the place where it stands, in
the order of the source; and a failure for an escape is placed at the backslash, unless it is that
of a reader that code was handed on to. -/
theorem places_of_whole_source (o : ParseOptions) (src : List Char) :
    (∀ limit, PlacedTokens [] src (tokens limit {} src)) ∧
    (o.HandsNothingOn →
      ∃ calls : List (List Char × List Char),
        (Source.parse o src).events.filterMap Event.handed?
          = calls.map (fun call => (String.ofList call.2, ({} : Position).advance call.1)) ∧
        calls.Pairwise (fun call next => call.1.length < next.1.length) ∧
        ∀ call ∈ calls, SourceAt src call.1 call.2 ∧ (∃ post, src = call.1 ++ (call.2 ++ post)) ∧
          ∀ limit, PlacedTokens call.1 call.2
            (tokens limit (({} : Position).advance call.1) call.2)) ∧
    ∀ f, (Source.parse o src).failure = some f →
      f.hasCode .unknownEscape = true ∨ f.hasCode .malformedUnicodeEscape = true →
      (∃ pre fault, BadEscape src pre fault ∧ (∃ post, src = pre ++ '\\' :: post) ∧
        f = fault.failure (({} : Position).advance pre)) ∨
      ∃ read lead code, o.embedded = some read ∧ SourceAt src lead code ∧
        (read (String.ofList code) (({} : Position).advance lead)).result = .error f := by
  refine ⟨fun limit => tokens_spots limit [] src, fun ho => ?_, fun f herr hcause => ?_⟩
  · obtain ⟨calls, hcalls⟩ := parseLevels_calls src.length ho (SourceAt.whole : SourceAt src [] src)
    exact ⟨calls, hcalls.handed, hcalls.grow, fun call hmem => ⟨hcalls.source call hmem,
      (hcalls.source call hmem).stands, fun limit => tokens_spots limit call.1 call.2⟩⟩
  · obtain ⟨bad, hbad, hf⟩ : ∃ bad ∈ Code.ofEscape, f.hasCode bad = true := by
      rcases hcause with hf | hf
      · exact ⟨_, by decide, hf⟩
      · exact ⟨_, by decide, hf⟩
    rcases parseLevels_fault hbad hf (SourceAt.whole : SourceAt src [] src) herr with
      ⟨pre, fault, hescape, rfl⟩ | hother
    · exact .inl ⟨pre, fault, hescape, hescape.stands, rfl⟩
    · exact .inr hother

/-- A bad escape in a literal in the code of another one, on the second line: the code and the
backslash are at their places in the whole source. -/
theorem places_of_whole_source_nested :
    let src := "a\n\"#\x7b \"\\q\" \x7d\"".toList
    let f := Escape.Fault.failure ⟨2, 6⟩ (.unknown (some 'q'))
    (Source.parse {} src).failure = some f ∧ f.hasCode .unknownEscape = true ∧
      (∃ pre fault, BadEscape src pre fault ∧ f = fault.failure (({} : Position).advance pre)) ∧
      ({} : ParseOptions).HandsNothingOn ∧
      ∃ calls : List (List Char × List Char), [(" \"\\q\" ", (⟨2, 4⟩ : Position))]
          = calls.map (fun call => (String.ofList call.2, ({} : Position).advance call.1)) ∧
        ∀ call ∈ calls, SourceAt src call.1 call.2 := by
  intro src f
  have herr : (Source.parse {} src).failure = some f := by decide +kernel
  have hcause : f.hasCode .unknownEscape = true := by decide +kernel
  have hquiet : ({} : ParseOptions).HandsNothingOn := fun _ h => nomatch h
  have hevents : (Source.parse {} src).events.filterMap Event.handed? =
      [(" \"\\q\" ", ⟨2, 4⟩)] := by
    decide +kernel
  obtain ⟨-, hcalls, hfault⟩ := places_of_whole_source {} src
  refine ⟨herr, hcause, ?_, hquiet, ?_⟩
  · rcases hfault f herr (.inl hcause) with ⟨pre, fault, hescape, -, hf⟩ | ⟨read, -, -, hread, -⟩
    · exact ⟨pre, fault, hescape, hf⟩
    · cases hread
  · obtain ⟨calls, hhanded, -, hsource⟩ := hcalls hquiet
    exact ⟨calls, hevents.symm.trans hhanded, fun call hmem => (hsource call hmem).1⟩

end TextScript
