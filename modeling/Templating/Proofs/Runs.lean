import Templating.Proofs.Roundtrip
import Templating.Proofs.Tiling

/-!
# Runs of steps

What a step cuts off does not depend on what is behind the next indicator, and whether a tag has a name makes
a difference to its parameters only where a body is opened. So the steps that lead to a tag are the same
whatever is behind its name.
-/

namespace Templating

namespace Lexer

open Text

/-! ### What a step does not see -/

theorem takeWhile_append_cons {p : Char → Bool} {d : Char} (hd : p d = false) (us rest : List Char) :
    (us ++ d :: rest).takeWhile p = us.takeWhile p := by
  induction us with
  | nil => simp [hd]
  | cons c us ih => by_cases hc : p c = true <;> simp [hc, ih]

theorem dropWhile_append_cons {p : Char → Bool} {d : Char} (hd : p d = false) (us rest : List Char) :
    (us ++ d :: rest).dropWhile p = us.dropWhile p ++ d :: rest := by
  induction us with
  | nil => simp [hd]
  | cons c us ih => by_cases hc : p c = true <;> simp [hc, ih]

theorem indicatorStep_append (us rest other : List Char) :
    indicatorStep (us ++ '#' :: rest) = indicatorStep (us ++ '#' :: other) := by
  have htake := fun rest => takeWhile_append_cons (p := isNamePart) (d := '#') (by decide) us rest
  have hdrop := fun rest => dropWhile_append_cons (p := isNamePart) (d := '#') (by decide) us rest
  unfold indicatorStep
  simp only [htake, hdrop]
  generalize us.dropWhile isNamePart = ds
  cases us with
  | nil => rfl
  | cons c us =>
    cases ds with
    | nil => grind
    | cons d ds => grind

theorem textStep_append (c : Char) (us rest other : List Char) :
    textStep c (us ++ '#' :: rest) = textStep c (us ++ '#' :: other) := by
  unfold textStep
  rw [indicatorStep_append us rest other, takeWhile_append_cons (by decide),
    takeWhile_append_cons (by decide)]
  cases us with
  | nil => rfl
  | cons d us => grind

theorem numberStep_append (mode : Mode) (c : Char) (us rest other : List Char) :
    numberStep mode c (us ++ '#' :: rest) = numberStep mode c (us ++ '#' :: other) := by
  have htake := fun us rest => takeWhile_append_cons (p := Char.isDigit) (d := '#') (by decide) us rest
  have hdrop := fun rest => dropWhile_append_cons (p := Char.isDigit) (d := '#') (by decide) us rest
  unfold numberStep
  simp only [htake, hdrop]
  generalize us.dropWhile Char.isDigit = ds
  cases ds with
  | nil => rfl
  | cons d ds => grind

theorem operatorStep_append (mode : Mode) (c : Char) (us rest other : List Char) :
    operatorStep mode c (us ++ '#' :: rest) = operatorStep mode c (us ++ '#' :: other) := by
  unfold operatorStep
  cases us with
  | nil => grind
  | cons d us => grind

theorem closingStep_append (named : Bool) (us rest other : List Char) :
    closingStep named (us ++ '#' :: rest) = closingStep named (us ++ '#' :: other) := by
  unfold closingStep
  cases us <;> grind

/-- A closed string is read from its own characters. -/
theorem stringChars_append {cs chars : List Char} (h : stringChars cs = .ok chars) (other : List Char) :
    stringChars (chars ++ other) = .ok chars := by
  fun_induction stringChars cs generalizing chars with
  | case1 cs =>
    obtain rfl := Except.ok.inj h
    rfl
  | case3 c cs hc more hmore ih =>
    obtain rfl := Except.ok.inj h
    rw [List.cons_append, List.cons_append, stringChars, if_neg hc, ih hmore]
  | case6 c cs hquote hback hlast more hmore ih =>
    obtain rfl := Except.ok.inj h
    have hne : c ≠ '"' := hquote
    have hback' : c ≠ '\\' := by
      rintro rfl
      cases cs with
      | nil => exact hlast rfl rfl
      | cons d cs => exact hback d cs rfl rfl
    rw [List.cons_append, stringChars.eq_def]
    grind
  | _ => cases h

theorem stringStep_append {mode : Mode} {us rest : List Char} {s : Step}
    (h : stringStep mode (us ++ rest) = .ok s) (hs : s.extra ≤ us.length) (other : List Char) :
    stringStep mode (us ++ other) = .ok s := by
  unfold stringStep at h ⊢
  split at h
  · next chars hchars =>
    obtain rfl := Except.ok.inj h
    obtain ⟨more, rfl⟩ : chars <+: us :=
      List.prefix_of_prefix_length_le (prefix_of_stringChars hchars) (List.prefix_append us rest) hs
    rw [List.append_assoc, stringChars_append hchars]
    rfl
  · cases h

theorem paramStep_append {named : Bool} {depth : Nat} {c : Char} {us rest : List Char} {s : Step}
    (h : paramStep named depth c (us ++ '#' :: rest) = .ok s) (hs : s.extra ≤ us.length)
    (other : List Char) : paramStep named depth c (us ++ '#' :: other) = .ok s := by
  by_cases hc : c = '"'
  · subst hc
    have hstring : stringStep (.params named depth) (us ++ '#' :: rest) = .ok s := h
    exact stringStep_append hstring hs _
  · rw [← h]
    have hname : isNamePart '#' = false := by decide
    have hblank : isParamBlank '#' = false := by decide
    unfold paramStep
    simp only [if_neg hc, numberStep_append _ _ us rest other, operatorStep_append _ _ us rest other,
      closingStep_append _ us rest other, takeWhile_append_cons hname, takeWhile_append_cons hblank]

/-! ### Parameters without a tag -/

/-- A step as it is in parameters of a tag without a name. -/
def Step.unnamed (s : Step) : Step :=
  { s with mode := match s.mode with
    | .text => .text
    | .params _ depth => .params false depth }

theorem operatorStep_unnamed (named : Bool) (depth : Nat) (c : Char) (cs : List Char) :
    operatorStep (.params false depth) c cs = (operatorStep (.params named depth) c cs).map Step.unnamed := by
  unfold operatorStep
  dsimp only
  split <;> rfl

theorem numberStep_unnamed (named : Bool) (depth : Nat) (c : Char) (cs : List Char) :
    numberStep (.params false depth) c cs = (numberStep (.params named depth) c cs).map Step.unnamed := by
  unfold numberStep
  dsimp only
  split
  · split
    · split <;> rfl
    · rfl
  · split <;> rfl

theorem stringStep_unnamed (named : Bool) (depth : Nat) (cs : List Char) :
    stringStep (.params false depth) cs = (stringStep (.params named depth) cs).map Step.unnamed := by
  unfold stringStep
  split <;> rfl

/-- Whether a tag has a name makes a difference only where a body is opened. -/
theorem paramStep_unnamed {depth : Nat} {c : Char} {cs : List Char} {s : Step}
    (h : paramStep true depth c cs = .ok s) (hs : s.extra = 0 ∨ s.mode ≠ .text) :
    paramStep false depth c cs = .ok s.unnamed := by
  have hmap : paramStep false depth c cs = (paramStep true depth c cs).map Step.unnamed := by
    unfold paramStep
    dsimp only
    split
    · rfl
    split
    · rfl
    split
    · next hblank hopen hclose =>
      split
      · subst hclose
        have hstep : closingStep true cs = s := Except.ok.inj h
        unfold closingStep at hstep ⊢
        split at hstep
        · subst hstep
          simp at hs
        · grind [Except.map, Step.unnamed, Step.one]
      · rfl
    split
    · rfl
    split
    · rfl
    split
    · exact stringStep_unnamed true depth cs
    split
    · exact numberStep_unnamed true depth c cs
    split
    · rfl
    · exact operatorStep_unnamed true depth c cs
  rw [hmap, h]
  rfl

theorem scan_unnamed {depth : Nat} {cs : List Char} {es zs : List Token}
    (h : scan (.params true depth) cs = some (es ++ .paramsClose :: zs))
    (hes : ∀ t ∈ es, ∃ param, t = .param param) (hzs : zs.head? ≠ some .bodyStart) :
    scan (.params false depth) cs = some (es ++ .paramsClose :: zs) := by
  generalize hmode : Mode.params true depth = mode at h
  induction mode, cs using cut.induct generalizing depth es with
  | case1 mode =>
    subst hmode
    rw [scan] at h
    cases h
  | case2 mode c cs fault hs =>
    rw [scan, hs] at h
    cases h
  | case3 mode c cs s hs ih =>
    subst hmode
    rw [scan_cons hs] at h
    obtain ⟨ts, hts, hput⟩ := Option.map_eq_some_iff.1 h
    have hread : paramStep true depth c cs = .ok s := hs
    cases paramStep_cases hread with
    | skip behind =>
      have hstep : step (.params false depth) c cs = .ok (.one (.params false depth) none c behind) :=
        paramStep_unnamed hread (.inr Mode.noConfusion)
      obtain rfl : ts = es ++ .paramsClose :: zs := hput
      have hrest : scan (.params false depth) (cs.drop behind.length) = some (es ++ .paramsClose :: zs) :=
        ih hes rfl hts
      rw [scan_cons hstep]
      exact (congrArg (Option.map _) hrest).trans rfl
    | token depth' t behind =>
      have hstep : step (.params false depth) c cs =
          .ok (.one (.params false depth') (some (.param t)) c behind) :=
        paramStep_unnamed hread (.inr Mode.noConfusion)
      have hput' : .param t :: ts = es ++ .paramsClose :: zs := hput
      cases es with
      | nil => cases hput'
      | cons u es =>
        obtain ⟨rfl, rfl⟩ := List.cons.inj hput'
        have hrest : scan (.params false depth') (cs.drop behind.length) =
            some (es ++ .paramsClose :: zs) := ih (List.forall_mem_cons.1 hes).2 rfl hts
        rw [scan_cons hstep]
        exact (congrArg (Option.map _) hrest).trans rfl
    | close =>
      have hstep : step (.params false depth) c cs = .ok (.one .text (some .paramsClose) ')' []) :=
        paramStep_unnamed hread (.inl rfl)
      rw [scan_cons hstep, ← hput]
      exact congrArg (Option.map _) hts
    | opened =>
      have hput' : .paramsClose :: .bodyStart :: ts = es ++ .paramsClose :: zs := hput
      cases es with
      | nil =>
        obtain rfl := (List.cons.inj hput').2
        exact absurd rfl hzs
      | cons u es =>
        obtain ⟨rfl, -⟩ := List.cons.inj hput'
        obtain ⟨param, hparam⟩ := (List.forall_mem_cons.1 hes).1
        cases hparam

/-! ### Runs of steps -/

/-- Steps lead over some pieces from one place of a text to another. -/
inductive Runs : Mode → List Char → List Piece → Mode → List Char → Prop where
  | refl (mode : Mode) (cs : List Char) : Runs mode cs [] mode cs
  | step {mode mode' : Mode} {c : Char} {cs cs' : List Char} {s : Step} {ps : List Piece}
    (hs : Lexer.step mode c cs = .ok s) (h : Runs s.mode (cs.drop s.extra) ps mode' cs') :
    Runs mode (c :: cs) (s.pieces ++ ps) mode' cs'

theorem Runs.chars {mode mode' : Mode} {cs cs' : List Char} {ps : List Piece}
    (h : Runs mode cs ps mode' cs') :
    ps.flatMap Piece.chars ++ cs' = cs := by
  induction h with
  | refl => rfl
  | step hs _ ih => rw [List.flatMap_append, List.append_assoc, ih, chars_step hs]

theorem Runs.scan {mode mode' : Mode} {cs cs' : List Char} {ps : List Piece} (h : Runs mode cs ps mode' cs') :
    Lexer.scan mode cs = (Lexer.scan mode' cs').map fun ts => ps.foldr (fun p => put p.token) ts := by
  induction h with
  | refl => simp
  | step hs _ ih =>
    rw [scan_cons hs, ih, Option.map_map]
    congr 1
    funext ts
    rw [List.foldr_append]
    rfl

theorem step_append {mode : Mode} {c : Char} {us rest : List Char} {s : Step}
    (h : step mode c (us ++ '#' :: rest) = .ok s) (hs : s.extra ≤ us.length) (other : List Char) :
    step mode c (us ++ '#' :: other) = .ok s := by
  cases mode with
  | text => exact (congrArg Except.ok (textStep_append c us other rest)).trans h
  | params named depth => exact paramStep_append h hs other

/-- Steps up to an indicator are taken whatever is behind it. -/
theorem Runs.behind {mode mode' : Mode} {cs rest : List Char} {ps : List Piece}
    (h : Runs mode cs ps mode' ('#' :: rest)) (other : List Char) :
    Runs mode (ps.flatMap Piece.chars ++ '#' :: other) ps mode' ('#' :: other) := by
  generalize hcs' : '#' :: rest = cs' at h
  induction h with
  | refl mode cs => exact .refl mode _
  | @step mode mode' c cs cs' s ps hs hps ih =>
    subst hcs'
    have hdrop : ps.flatMap Piece.chars ++ '#' :: rest = cs.drop s.extra := hps.chars
    have hextra : s.extra < cs.length := by
      have hlength := congrArg List.length hdrop
      simp only [List.length_append, List.length_cons, List.length_drop] at hlength
      omega
    have hchars : s.pieces.flatMap Piece.chars = c :: cs.take s.extra := by
      have hstep := chars_step hs
      rw [← List.take_append_drop s.extra cs, List.drop_left' (List.length_take_of_le hextra.le)] at hstep
      exact List.append_cancel_right hstep
    have htake : (cs.take s.extra).length = s.extra := List.length_take_of_le hextra.le
    rw [← List.take_append_drop s.extra cs, ← hdrop, ← List.append_assoc] at hs
    have hother := step_append hs (by rw [List.length_append, htake]; exact Nat.le_add_right _ _) other
    rw [List.flatMap_append, hchars, List.append_assoc, List.cons_append]
    rw [List.append_assoc] at hother
    refine .step hother ?_
    rw [List.drop_left' htake]
    exact ih rfl

/-- A tag comes first among the pieces of a step over an indicator. -/
theorem eq_nil_of_tag {mode : Mode} {c : Char} {cs : List Char} {s : Step} (hs : step mode c cs = .ok s)
    {us vs : List Piece} {name : String} {chars : List Char}
    (hp : s.pieces = us ++ ⟨some (.tag name), chars⟩ :: vs) : us = [] ∧ mode = .text ∧ c = '#' := by
  have hmem : ⟨some (.tag name), chars⟩ ∈ s.pieces := hp ▸ List.mem_append_right us List.mem_cons_self
  have hhead : ∀ {p q : Piece}, s.pieces = [p, q] → (∀ name, q.token ≠ some (.tag name)) →
      us = [] := by
    intro p q hpieces hq
    rcases List.cons_eq_append_iff.1 (hpieces.symm.trans hp) with ⟨rfl, -⟩ | ⟨more, rfl, hmore⟩
    · rfl
    · have hlast : ⟨some (.tag name), chars⟩ ∈ [q] :=
        hmore ▸ List.mem_append_right more List.mem_cons_self
      exact absurd (congrArg Piece.token (List.mem_singleton.1 hlast)).symm (hq name)
  cases mode with
  | text =>
    have hcases : TextStep c cs s := Except.ok.inj hs ▸ textStep_cases c cs
    cases hcases with
    | plain => exact absurd hmem (by simp [Step.one])
    | escaped => exact absurd hmem (by simp [Step.one])
    | backslash => exact absurd hmem (by simp [Step.one])
    | indicator => exact absurd hmem (by simp [Step.one])
    | anonymous => exact absurd hmem (by simp)
    | named hc => exact ⟨hhead rfl (by simp), rfl, hc⟩
    | otherwise hc => exact ⟨hhead rfl (by simp), rfl, hc⟩
    | keyword hc =>
      rcases List.cons_eq_append_iff.1 hp with ⟨rfl, -⟩ | ⟨more, -, hmore⟩
      · exact ⟨rfl, rfl, hc⟩
      · exact absurd hmore (by simp)
  | params named depth =>
    cases paramStep_cases hs with
    | skip => exact absurd hmem (by simp [Step.one])
    | token => exact absurd hmem (by simp [Step.one])
    | close => exact absurd hmem (by simp [Step.one])
    | opened => exact absurd hmem (by simp)

/-- Steps lead to the indicator of each tag. -/
theorem exists_runs_of_tag {mode : Mode} {cs : List Char} {xs ys : List Piece} {name : String}
    {chars : List Char} (h : (cut mode cs).pieces = xs ++ ⟨some (.tag name), chars⟩ :: ys) :
    ∃ rest more, Runs mode cs xs .text ('#' :: rest) ∧
      (indicatorStep rest).pieces = ⟨some (.tag name), chars⟩ :: more ∧ more <+: ys := by
  induction mode, cs using cut.induct generalizing xs with
  | case1 mode =>
    rw [cut] at h
    exact absurd h (by simp)
  | case2 mode c cs fault hs =>
    rw [cut, hs] at h
    exact absurd h (by simp)
  | case3 mode c cs s hs ih =>
    rw [cut, hs] at h
    have hlater : ∀ {zs},
        (cut s.mode (cs.drop s.extra)).pieces = zs ++ ⟨some (.tag name), chars⟩ :: ys →
        ∃ rest more, Runs mode (c :: cs) (s.pieces ++ zs) .text ('#' :: rest) ∧
          (indicatorStep rest).pieces = ⟨some (.tag name), chars⟩ :: more ∧ more <+: ys := by
      intro zs hzs
      obtain ⟨rest, more, hruns, hpieces, hmore⟩ := ih hzs
      exact ⟨rest, more, .step hs hruns, hpieces, hmore⟩
    rcases List.append_eq_append_iff.1 h with ⟨zs, rfl, hzs⟩ | ⟨zs, hpieces, hzs⟩
    · exact hlater hzs
    · cases zs with
      | nil =>
        rw [List.append_nil] at hpieces
        have hruns := @hlater [] hzs.symm
        rwa [List.append_nil, hpieces] at hruns
      | cons p more =>
        obtain ⟨rfl, rfl⟩ := List.cons.inj hzs
        obtain ⟨rfl, rfl, rfl⟩ := eq_nil_of_tag hs hpieces
        obtain rfl : indicatorStep cs = s := Except.ok.inj hs
        exact ⟨cs, more, .refl _ _, hpieces, List.prefix_append _ _⟩

/-- What is cut off as a tag is an indicator with a name behind it. -/
theorem isName_of_indicatorStep {cs : List Char} {name : String} {chars : List Char} {more : List Piece}
    (h : (indicatorStep cs).pieces = ⟨some (.tag name), chars⟩ :: more) :
    IsName name ∧ chars = '#' :: name.toList ∧
      ∃ rest, cs = name.toList ++ rest ∧ StopsAt isNamePart rest := by
  have htag : ∀ {ps : List Piece}, isNameStart (cs.headD ' ') = true →
      ⟨some (.tag (String.ofList (cs.takeWhile isNamePart))), '#' :: cs.takeWhile isNamePart⟩ :: ps =
        (⟨some (.tag name), chars⟩ :: more : List Piece) →
      IsName name ∧ chars = '#' :: name.toList ∧
        ∃ rest, cs = name.toList ++ rest ∧ StopsAt isNamePart rest := by
    intro ps hstart hps
    cases hps
    rw [String.toList_ofList]
    refine ⟨?_, rfl, cs.dropWhile isNamePart, List.takeWhile_append_dropWhile.symm, fun c hc => ?_⟩
    · cases cs with
      | nil => exact absurd hstart (by decide)
      | cons c cs =>
        have hpart : isNamePart c = true := by
          rw [isNamePart, show isNameStart c = true from hstart, Bool.true_or]
        refine ⟨c, cs.takeWhile isNamePart, ?_, hstart, all_of_takeWhile⟩
        rw [String.toList_ofList, List.takeWhile_cons_of_pos hpart]
    · have hnot := List.head?_dropWhile_not isNamePart cs
      rw [hc] at hnot
      exact hnot
  unfold indicatorStep at h
  dsimp only at h
  split at h
  · cases h
  · next c cs hne =>
    split at h
    · next hstart =>
      split at h
      · exact htag hstart h
      · split at h
        · exact htag hstart h
        · split at h
          · exact htag hstart h
          · cases h
      · split at h
        · exact htag hstart h
        · cases h
    · cases h
  · cases h

theorem joinRaw_eq_append {ps xs ys : List Piece} {p : Piece} (h : joinRaw ps = xs ++ p :: ys)
    (hp : ∀ a, p.token ≠ some (.raw a)) :
    ∃ us vs, ps = us ++ p :: vs ∧ us.flatMap Piece.chars = xs.flatMap Piece.chars ∧
      joinRaw vs = ys := by
  fun_induction joinRaw ps generalizing xs with
  | case1 => exact absurd h (by simp)
  | case2 ps a cs b ds rest hjoin ih =>
    rcases List.cons_eq_append_iff.1 h with ⟨rfl, hcons⟩ | ⟨more, rfl, hmore⟩
    · obtain ⟨rfl, -⟩ := List.cons.inj hcons
      exact absurd rfl (hp (a ++ b))
    · have hjoin' : joinRaw ps = ⟨some (.raw b), ds⟩ :: more ++ p :: ys := by
        rw [hjoin, hmore]
        rfl
      obtain ⟨us, vs, rfl, hus, hvs⟩ := ih hjoin'
      refine ⟨⟨some (.raw a), cs⟩ :: us, vs, rfl, ?_, hvs⟩
      rw [List.flatMap_cons, hus, List.flatMap_cons, List.flatMap_cons, List.append_assoc]
  | case3 ps q hne ih =>
    rcases List.cons_eq_append_iff.1 h with ⟨rfl, hcons⟩ | ⟨more, rfl, hmore⟩
    · obtain ⟨rfl, rfl⟩ := List.cons.inj hcons
      exact ⟨[], ps, rfl, rfl, rfl⟩
    · obtain ⟨us, vs, rfl, hus, hvs⟩ := ih hmore
      exact ⟨q :: us, vs, rfl, by rw [List.flatMap_cons, hus, List.flatMap_cons], hvs⟩

end Lexer

end Templating
