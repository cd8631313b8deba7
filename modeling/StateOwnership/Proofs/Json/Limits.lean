import Mathlib.Logic.Relation
import StateOwnership.Proofs.Json.Scalars

/-!
# Documents that are beyond the limits of their reader

A document can be read step by step with the list of the containers that are open. **The reader is
stopped by a limit if and only if the steps lead to a container inside as many as may nest, or to an
integer with more digits than are read**; a document without such a place is read or is malformed.
-/

namespace StateOwnership.Json

open Text (doubleQuote)

/-! ## 1. Steps -/

def Container.closing : Container → CodePoint
  | .array => 0x5D
  | .object => 0x7D

/-- A place in a document that is read: in front of a value or behind one, with the containers that
are open there, the innermost one first, and what is left of the text. -/
inductive Place where
  | before (around : List Container) (left : Text)
  | behind (around : List Container) (left : Text)

namespace Place

def left : Place → Text
  | .before _ t => t
  | .behind _ t => t

/-- The place in front of the next value of a container; in an object its name comes first. -/
def inside (around : List Container) (t : Text) : Container → Option Place
  | .array => some (.before (.array :: around) t)
  | .object => (name t).toOption.map fun (_, rest) => .before (.object :: around) rest

/-- The place in front of the first value of a container, or behind a container that is empty. -/
def enter (around : List Container) (t : Text) (container : Container) : Option Place :=
  match skipBlanks t with
  | [] => none
  | c :: rest =>
    if c = container.closing then some (.behind around rest)
    else inside around (c :: rest) container

def next : Place → Option Place
  | .before _ [] => none
  | .before around (c :: rest) =>
    if c = doubleQuote then
      (stringFrom (c :: rest) rest).toOption.map fun (_, after) => .behind around after
    else if c = 0x5B then enter around rest .array
    else if c = 0x7B then enter around rest .object
    else (scalar (c :: rest)).toOption.map fun (_, after) => .behind around after
  | .behind [] _ => none
  | .behind (container :: around) t =>
    match skipBlanks t with
    | [] => none
    | c :: rest =>
      if c = container.closing then some (.behind around rest)
      else if c = 0x2C then inside around (skipBlanks rest) container
      else none

/-- A place that is beyond the limits: in front of a container inside as many as may nest, or of an
integer with more digits than are read. -/
def Beyond : Place → Prop
  | .before around t =>
    depthLimit ≤ around.length ∧ (t.head? = some 0x5B ∨ t.head? = some 0x7B) ∨ StartsLong t
  | .behind .. => False

abbrev LeadsTo : Place → Place → Prop :=
  Relation.ReflTransGen fun p q => p.next = some q

/-- Steps lead from a place to another, and no place on the way is beyond the limits. -/
abbrev Passes : Place → Place → Prop :=
  Relation.ReflTransGen fun p q => ¬ p.Beyond ∧ p.next = some q

end Place

/-- The steps through a document lead to a place beyond the limits. -/
def Overruns (t : Text) : Prop :=
  ∃ p, Place.LeadsTo (.before [] (skipBlanks t)) p ∧ p.Beyond

theorem map_toOption_eq_some {α β : Type} {read : Except Stop α} {f : α → β} {b : β}
    (h : read.toOption.map f = some b) : ∃ a, read = .ok a ∧ f a = b := by
  cases read with
  | error stop => simp [Except.toOption] at h
  | ok a => exact ⟨a, rfl, Option.some.inj h⟩

namespace Place

variable {p q r : Place} {around : List Container} {container : Container} {t : Text}

theorem length_inside (h : inside around t container = some q) : q.left.length ≤ t.length := by
  cases container with
  | array =>
    obtain rfl := Option.some.inj h
    exact Nat.le_refl _
  | object =>
    obtain ⟨⟨n, rest⟩, hname, rfl⟩ := map_toOption_eq_some h
    have hunlimited := name_unlimited t
    rwa [hname] at hunlimited

theorem length_enter (h : enter around t container = some q) : q.left.length ≤ t.length := by
  have hblanks := length_skipBlanks t
  rw [enter] at h
  split at h
  · simp at h
  · rename_i c rest hskip
    rw [hskip] at hblanks
    split at h
    · obtain rfl := Option.some.inj h
      exact (Nat.le_succ _).trans hblanks
    · exact (length_inside h).trans hblanks

theorem length_next (h : p.next = some q) : q.left.length ≤ p.left.length := by
  match p with
  | .before _ [] => simp [next] at h
  | .behind [] _ => simp [next] at h
  | .before around (c :: rest) =>
    rw [next] at h
    split at h
    · obtain ⟨⟨s, after⟩, hstring, rfl⟩ := map_toOption_eq_some h
      have hunlimited := stringFrom_unlimited (c :: rest) rest
      rw [hstring] at hunlimited
      exact Nat.le_succ_of_le hunlimited
    split at h
    · exact (length_enter h).trans (Nat.le_succ _)
    split at h
    · exact (length_enter h).trans (Nat.le_succ _)
    · obtain ⟨⟨v, after⟩, hscalar, rfl⟩ := map_toOption_eq_some h
      exact length_scalar hscalar
  | .behind (container :: around) t =>
    have hblanks := length_skipBlanks t
    rw [next] at h
    split at h
    · simp at h
    · rename_i c rest hskip
      rw [hskip] at hblanks
      split at h
      · obtain rfl := Option.some.inj h
        exact (Nat.le_succ _).trans hblanks
      split at h
      · have hrest := (length_inside h).trans (length_skipBlanks rest)
        exact (hrest.trans (Nat.le_succ _)).trans hblanks
      · simp at h

theorem next_behind {c : CodePoint} {rest : Text} (around : List Container)
    (container : Container) (h : skipBlanks t = c :: rest) :
    (Place.behind (container :: around) t).next =
      if c = container.closing then some (.behind around rest)
      else if c = 0x2C then inside around (skipBlanks rest) container
      else none := by
  rw [next, h]

theorem Passes.length (h : Passes p q) : q.left.length ≤ p.left.length := by
  induction h with
  | refl => exact Nat.le_refl _
  | tail _ hstep ih => exact (length_next hstep.2).trans ih

theorem Passes.leadsTo (h : Passes p q) : LeadsTo p q :=
  Relation.ReflTransGen.mono (fun _ _ => And.right) _ _ h

-- Steps that pass to a place from which none goes on lead to no place beyond the limits.
theorem Passes.not_beyond (h : Passes p q) (hend : q.next = none) (hq : ¬ q.Beyond)
    (hr : LeadsTo p r) : ¬ r.Beyond := by
  induction h using Relation.ReflTransGen.head_induction_on with
  | refl =>
    rcases hr.cases_head with rfl | ⟨s, hstep, -⟩
    · exact hq
    · simp [hend] at hstep
  | head hstep _ ih =>
    rcases hr.cases_head with rfl | ⟨s, hother, hrest⟩
    · exact hstep.1
    · rw [hstep.2] at hother
      obtain rfl := Option.some.inj hother
      exact ih hrest

end Place

/-! ## 2. Reading is stepping -/

/-- From a place steps lead to where a reader stops: behind what it has read, to a place beyond the
limits, or to a place from which no step goes on. -/
def Follows {α : Type} (p : Place) (around : List Container) : Except Stop (α × Text) → Prop
  | .ok (_, rest) => p.Passes (.behind around rest)
  | .error stop =>
    ∃ q, p.Passes q ∧ (stop.ofLimit = true ∧ q.Beyond ∨
      stop.ofLimit = false ∧ ¬ q.Beyond ∧ q.next = none)

section Follows

variable {α β : Type} {p q : Place} {around outer : List Container} {read : Except Stop (α × Text)}
  {stop : Stop}

theorem Follows.of_passes (h : p.Passes q) (hq : Follows q around read) : Follows p around read := by
  cases read with
  | error stop =>
    obtain ⟨r, hr, hstop⟩ := hq
    exact ⟨r, h.trans hr, hstop⟩
  | ok found => exact h.trans hq

theorem Follows.step (hp : ¬ p.Beyond) (hnext : p.next = some q) (hq : Follows q around read) :
    Follows p around read :=
  .of_passes (.single ⟨hp, hnext⟩) hq

theorem Follows.problem {what : Problem} {left : Nat} (hp : ¬ p.Beyond) (hnext : p.next = none) :
    Follows p around (.error (.problem what left) : Except Stop (α × Text)) :=
  ⟨p, .refl, .inr ⟨rfl, hp, hnext⟩⟩

-- What is made of the value that was read does not matter.
theorem Follows.map {f : α → β} (h : Follows p around read) :
    Follows p around (read.map fun (a, rest) => (f a, rest)) := by
  cases read <;> exact h

-- A reader that stops inside of a container stops the reader of the container.
theorem Follows.error (h : Follows p around (.error stop : Except Stop (α × Text))) :
    Follows p outer (.error stop : Except Stop (β × Text)) := h

theorem not_beyond_behind (around : List Container) (t : Text) : ¬ (Place.behind around t).Beyond :=
  id

theorem not_beyond_of_head {t : Text} (harray : t.head? ≠ some 0x5B) (hobject : t.head? ≠ some 0x7B)
    (hlong : ¬ StartsLong t) : ¬ (Place.before around t).Beyond := by
  rintro (⟨-, hhead | hhead⟩ | hstarts)
  · exact harray hhead
  · exact hobject hhead
  · exact hlong hstarts

end Follows

/-! ### 2.1 Containers -/

section Containers

variable {α : Type} {around : List Container} {container : Container} {item : Reader Json}
  {fuel bound : Nat} {t : Text} {p : Place}

/-- What is read inside of a container follows the steps from any place that leads there. -/
def FollowsInside (around : List Container) (container : Container) (t : Text)
    (read : Except Stop (α × Text)) : Prop :=
  ∀ p : Place, ¬ p.Beyond → p.next = Place.inside around t container → Follows p around read

-- Behind a value its container ends, or the next value comes after a comma.
theorem follows_behind {rest : Text} {one : α} {join : α → α} {more : Reader α}
    (hmore : ∀ after : Text, after.length < rest.length →
      FollowsInside around container after (more after)) :
    Follows (.behind (container :: around) rest) around
      (match skipBlanks rest with
      | c :: rest =>
        if c = container.closing then pure (one, rest)
        else if c = 0x2C then do
          let (others, rest) ← more (skipBlanks rest)
          return (join others, rest)
        else throw (.problem .expectingComma (rest.length + 1))
      | [] => throw (.problem .expectingComma 0)) := by
  have hbehind := not_beyond_behind (container :: around) rest
  cases hskip : skipBlanks rest with
  | nil => exact .problem hbehind (by simp [Place.next, hskip])
  | cons c after =>
    have hnext := Place.next_behind around container hskip
    have hblanks := length_skipBlanks rest
    have hafter := length_skipBlanks after
    rw [hskip, List.length_cons] at hblanks
    dsimp only
    by_cases hc : c = container.closing
    · rw [if_pos hc] at hnext ⊢
      exact .step hbehind hnext .refl
    rw [if_neg hc] at hnext ⊢
    by_cases hcomma : c = 0x2C
    · rw [if_pos hcomma] at hnext ⊢
      have hothers := hmore (skipBlanks after) (by omega) _ hbehind hnext
      cases hread : more (skipBlanks after) with
      | error stop =>
        rw [hread] at hothers
        exact hothers.error
      | ok found =>
        rw [hread] at hothers
        exact hothers
    · rw [if_neg hcomma] at hnext ⊢
      exact .problem hbehind hnext

theorem items_follows
    (hitem : ∀ u : Text, u.length ≤ bound →
      Follows (.before (.array :: around) u) (.array :: around) (item u))
    (hfuel : t.length ≤ fuel) (hbound : fuel ≤ bound) :
    FollowsInside around .array t (items item fuel t) := by
  induction fuel generalizing t with
  | zero =>
    obtain rfl := List.eq_nil_of_length_eq_zero (Nat.le_zero.mp hfuel)
    exact fun p hp hnext => .step hp hnext
      (.problem (not_beyond_of_head (by simp) (by simp) not_startsLong_nil) rfl)
  | succ fuel ih =>
    intro p hp hnext
    refine .step hp hnext ?_
    have hfirst := hitem t (hfuel.trans hbound)
    rw [items]
    cases hread : item t with
    | error stop =>
      rw [hread] at hfirst
      exact hfirst.error
    | ok found =>
      obtain ⟨v, rest⟩ := found
      rw [hread] at hfirst
      have hlength := hfirst.length
      simp only [Place.left] at hlength
      exact .of_passes hfirst (follows_behind fun after hafter => ih (by omega) (by omega))

theorem members_follows
    (hitem : ∀ u : Text, u.length ≤ bound →
      Follows (.before (.object :: around) u) (.object :: around) (item u))
    (hfuel : t.length ≤ fuel) (hbound : fuel ≤ bound) :
    FollowsInside around .object t (members item fuel t) := by
  induction fuel generalizing t with
  | zero =>
    obtain rfl := List.eq_nil_of_length_eq_zero (Nat.le_zero.mp hfuel)
    exact fun p hp hnext => .problem hp hnext
  | succ fuel ih =>
    intro p hp hnext
    have hunlimited := name_unlimited t
    rw [members]
    rw [Place.inside] at hnext
    cases hname : name t with
    | error stop =>
      rw [hname] at hnext hunlimited
      exact ⟨p, .refl, .inr ⟨hunlimited, hp, hnext⟩⟩
    | ok named =>
      obtain ⟨n, u⟩ := named
      rw [hname] at hnext hunlimited
      have hlength : u.length ≤ t.length := hunlimited
      have hfirst := hitem u (by omega)
      refine .step hp hnext ?_
      simp only [bind, Except.bind]
      cases hread : item u with
      | error stop =>
        rw [hread] at hfirst
        exact hfirst.error
      | ok found =>
        obtain ⟨v, rest⟩ := found
        rw [hread] at hfirst
        have hrest := hfirst.length
        simp only [Place.left] at hrest
        exact .of_passes hfirst (follows_behind fun after hafter => ih (by omega) (by omega))

-- Behind its opening bracket a container ends, or its first value comes.
theorem enter_follows {β : Type} {rest : Text} {empty : β} {of : α → β} {inner : Reader α}
    {what : Problem} (hp : ¬ p.Beyond) (hnext : p.next = Place.enter around rest container)
    (hinner : ∀ u : Text, u.length ≤ rest.length → FollowsInside around container u (inner u)) :
    Follows p around
      (match skipBlanks rest with
      | c :: after =>
        if c = container.closing then .ok (empty, after)
        else (inner (c :: after)).map fun (a, rest) => (of a, rest)
      | [] => .error (.problem what 0)) := by
  have hblanks := length_skipBlanks rest
  rw [Place.enter] at hnext
  cases hskip : skipBlanks rest with
  | nil =>
    rw [hskip] at hnext
    exact .problem hp hnext
  | cons c after =>
    rw [hskip] at hnext hblanks
    dsimp only at hnext ⊢
    by_cases hc : c = container.closing
    · rw [if_pos hc] at hnext ⊢
      exact .step hp hnext .refl
    · rw [if_neg hc] at hnext ⊢
      exact (hinner (c :: after) hblanks p hp hnext).map

end Containers

/-! ### 2.2 Values and documents -/

section Values

variable {around : List Container} {fuel depth : Nat} {c : CodePoint} {t rest : Text}

theorem not_beyond_of_lt (hlt : around.length < depthLimit) (hminus : c ≠ 0x2D)
    (hdigit : c.isAsciiDigit = false) : ¬ (Place.before around (c :: rest)).Beyond := by
  rintro (⟨hle, -⟩ | hlong)
  · exact absurd hle (Nat.not_le.mpr hlt)
  · exact not_startsLong_cons hminus hdigit hlong

theorem string_follows (around : List Container) (rest : Text) :
    Follows (.before around (doubleQuote :: rest)) around
      ((stringFrom (doubleQuote :: rest) rest).map fun (s, rest) => (Json.str s, rest)) := by
  have hbefore : ¬ (Place.before around (doubleQuote :: rest)).Beyond :=
    not_beyond_of_head (by simp [doubleQuote]) (by simp [doubleQuote])
      (not_startsLong_cons (by decide) (by decide))
  have hnext : (Place.before around (doubleQuote :: rest)).next =
      (stringFrom (doubleQuote :: rest) rest).toOption.map fun (_, after) => .behind around after := by
    rw [Place.next, if_pos rfl]
  have hunlimited := stringFrom_unlimited (doubleQuote :: rest) rest
  cases hstring : stringFrom (doubleQuote :: rest) rest with
  | error stop =>
    rw [hstring] at hunlimited
    exact ⟨_, .refl, .inr ⟨hunlimited, hbefore, by rw [hnext, hstring]; rfl⟩⟩
  | ok found => exact .step hbefore (by rw [hnext, hstring]; rfl) .refl

theorem scalar_follows (hquote : c ≠ doubleQuote) (harray : c ≠ 0x5B) (hobject : c ≠ 0x7B) :
    Follows (.before around (c :: rest)) around (scalar (c :: rest)) := by
  have hnext : (Place.before around (c :: rest)).next =
      (scalar (c :: rest)).toOption.map fun (_, after) => .behind around after := by
    rw [Place.next, if_neg hquote, if_neg harray, if_neg hobject]
  by_cases hlong : StartsLong (c :: rest)
  · obtain ⟨stop, hstop, hlimit⟩ := scalar_ofLimit_iff.mpr hlong
    rw [hstop]
    exact ⟨_, .refl, .inl ⟨hlimit, .inr hlong⟩⟩
  have hbefore : ¬ (Place.before around (c :: rest)).Beyond :=
    not_beyond_of_head (by simpa using harray) (by simpa using hobject) hlong
  cases hscalar : scalar (c :: rest) with
  | error stop =>
    have hlimit : stop.ofLimit = false :=
      Bool.eq_false_iff.mpr fun hlimit => hlong (scalar_ofLimit_iff.mp ⟨stop, hscalar, hlimit⟩)
    exact ⟨_, .refl, .inr ⟨hlimit, hbefore, by rw [hnext, hscalar]; rfl⟩⟩
  | ok found => exact .step hbefore (by rw [hnext, hscalar]; rfl) .refl

-- A value is read like its containers, whose values are one deeper.
theorem value_follows_of_inner (hdepth : around.length + depth = depthLimit)
    (hfuel : t.length ≤ fuel)
    (hinner : ∀ deeper container u, depth = deeper + 1 → u.length ≤ fuel →
      Follows (.before (container :: around) u) (container :: around) (value fuel deeper u)) :
    Follows (.before around t) around (value fuel depth t) := by
  rw [value.eq_def]
  cases t with
  | nil => exact .problem (not_beyond_of_head (by simp) (by simp) not_startsLong_nil) rfl
  | cons c rest =>
    have hrest : rest.length ≤ fuel := Nat.le_of_succ_le hfuel
    dsimp only
    by_cases hquote : c = doubleQuote
    · rw [if_pos hquote]
      subst hquote
      exact string_follows around rest
    rw [if_neg hquote]
    by_cases harray : c = 0x5B
    · rw [if_pos harray]
      subst harray
      cases depth with
      | zero => exact ⟨_, .refl, .inl ⟨rfl, .inl ⟨hdepth.ge, .inl rfl⟩⟩⟩
      | succ deeper =>
        have hbefore : ¬ (Place.before around (0x5B :: rest)).Beyond :=
          not_beyond_of_lt (by omega) (by decide) (by decide)
        exact enter_follows hbefore rfl fun u hu =>
          items_follows (hinner deeper .array · rfl) (hu.trans hrest) le_rfl
    rw [if_neg harray]
    by_cases hobject : c = 0x7B
    · rw [if_pos hobject]
      subst hobject
      cases depth with
      | zero => exact ⟨_, .refl, .inl ⟨rfl, .inl ⟨hdepth.ge, .inr rfl⟩⟩⟩
      | succ deeper =>
        have hbefore : ¬ (Place.before around (0x7B :: rest)).Beyond :=
          not_beyond_of_lt (by omega) (by decide) (by decide)
        exact enter_follows hbefore rfl fun u hu =>
          members_follows (hinner deeper .object · rfl) (hu.trans hrest) le_rfl
    rw [if_neg hobject]
    exact scalar_follows hquote harray hobject

theorem value_follows (hdepth : around.length + depth = depthLimit) (hfuel : t.length ≤ fuel) :
    Follows (.before around t) around (value fuel depth t) := by
  induction depth generalizing around t with
  | zero => exact value_follows_of_inner hdepth hfuel fun deeper _ _ h => by simp at h
  | succ depth ih =>
    refine value_follows_of_inner hdepth hfuel fun deeper container u h hu => ?_
    obtain rfl := Nat.succ.inj h
    exact ih (by rw [List.length_cons]; omega) hu

end Values

/-- **A document is stopped by a limit if and only if the steps through it lead to a place that is
beyond the limits.** -/
theorem document_ofLimit_iff (t : Text) :
    (∃ stop, document t = .error stop ∧ stop.ofLimit = true) ↔ Overruns t := by
  have hvalue : Follows (.before [] (skipBlanks t)) [] (value t.length depthLimit (skipBlanks t)) :=
    value_follows (Nat.zero_add _) (length_skipBlanks t)
  rw [document]
  cases hread : value t.length depthLimit (skipBlanks t) with
  | error stop =>
    rw [hread] at hvalue
    obtain ⟨q, hpasses, ⟨hlimit, hq⟩ | ⟨hlimit, hq, hend⟩⟩ := hvalue
    · exact iff_of_true ⟨stop, rfl, hlimit⟩ ⟨q, hpasses.leadsTo, hq⟩
    · refine iff_of_false ?_ fun ⟨r, hr, hbeyond⟩ => hpasses.not_beyond hend hq hr hbeyond
      rintro ⟨other, hother, hof⟩
      obtain rfl := Except.error.inj hother
      simp [hlimit] at hof
  | ok found =>
    obtain ⟨v, rest⟩ := found
    rw [hread] at hvalue
    have hbehind := not_beyond_behind [] rest
    refine iff_of_false ?_ fun ⟨r, hr, hbeyond⟩ => hvalue.not_beyond rfl hbehind hr hbeyond
    rintro ⟨stop, hstop, hlimit⟩
    simp only [bind, Except.bind] at hstop
    split at hstop
    · simp [pure, Except.pure] at hstop
    · obtain rfl := Except.error.inj hstop
      simp [Stop.ofLimit] at hlimit

/-! ## 3. Documents beyond the limits -/

theorem isBlankChar_digit {d : CodePoint} (h : d.isAsciiDigit = true) : isBlankChar d = false := by
  cases hblank : isBlankChar d with
  | false => rfl
  | true =>
    simp only [isBlankChar, Bool.or_eq_true, decide_eq_true_eq] at hblank
    rcases hblank with ((rfl | rfl) | rfl) | rfl <;> exact absurd h (by decide)

theorem overruns_of_startsLong {t : Text} (h : StartsLong t) : Overruns t := by
  have hblanks : skipBlanks t = t := by
    obtain ⟨d, hd, ⟨rest, rfl⟩ | ⟨rest, rfl⟩⟩ := h.head
    · exact skipBlanks_cons (isBlankChar_digit hd) rest
    · exact skipBlanks_cons rfl _
  rw [Overruns, hblanks]
  exact ⟨.before [] t, .refl, .inr h⟩

-- Every opening bracket leads one deeper.
theorem leadsTo_of_brackets (n : Nat) (around : List Container) (rest : Text) :
    Place.LeadsTo (.before around (List.replicate n 0x5B ++ 0x5B :: rest))
      (.before (List.replicate n .array ++ around) (0x5B :: rest)) := by
  induction n generalizing around with
  | zero => exact .refl
  | succ n ih =>
    have hnext : (Place.before around (List.replicate (n + 1) 0x5B ++ 0x5B :: rest)).next =
        some (.before (.array :: around) (List.replicate n 0x5B ++ 0x5B :: rest)) := by
      cases n <;> rfl
    have hone : List.replicate (n + 1) Container.array ++ around =
        List.replicate n .array ++ .array :: around := by
      rw [List.replicate_succ', List.append_assoc]
      rfl
    rw [hone]
    exact .head hnext (ih (.array :: around))

theorem overruns_of_brackets {n : Nat} (h : depthLimit ≤ n) (rest : Text) :
    Overruns (List.replicate n 0x5B ++ 0x5B :: rest) := by
  have hblanks : skipBlanks (List.replicate n 0x5B ++ 0x5B :: rest) =
      List.replicate n 0x5B ++ 0x5B :: rest := by
    cases n <;> exact skipBlanks_cons rfl _
  have hdeep : depthLimit ≤ (List.replicate n Container.array ++ []).length := by simpa using h
  rw [Overruns, hblanks]
  exact ⟨_, leadsTo_of_brackets n [] rest, .inl ⟨hdeep, .inl rfl⟩⟩

end StateOwnership.Json
