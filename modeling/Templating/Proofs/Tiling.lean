import Templating.Proofs.Scanning

/-!
# Where tokens stand

The pieces of a text without a fault follow one another and together are the text. So each token stands
where its span says, in the order of the text, and what stands between two tokens is a piece without a
token: the indicator of a tag that has no name, or blanks between the parentheses of a tag.
-/

namespace Templating

namespace Text

/-- Some characters with each backslash taken away that stands before a `#`. -/
def unguarded : List Char → List Char
  | '\\' :: '#' :: cs => '#' :: unguarded cs
  | c :: cs => c :: unguarded cs
  | [] => []

theorem unguarded_cons {c : Char} {cs : List Char} (h : c = '\\' → cs.head? ≠ some '#') :
    unguarded (c :: cs) = c :: unguarded cs := by
  refine unguarded.eq_2 c cs fun rest hc hcs => h hc ?_
  rw [hcs]
  rfl

theorem unguarded_append {cs : List Char} (h : '\\' ∉ cs) (more : List Char) :
    unguarded (cs ++ more) = cs ++ unguarded more := by
  induction cs with
  | nil => rfl
  | cons c cs ih =>
    obtain ⟨hc, hcs⟩ := List.ne_and_not_mem_of_not_mem_cons h
    rw [List.cons_append, unguarded_cons fun he => absurd he.symm hc, ih hcs, List.cons_append]

/-- At a span of the text stand these characters. -/
def StandsAt (source : List Char) (span : Span) (chars : List Char) : Prop :=
  ∃ before after, source = before ++ (chars ++ after) ∧ width before = span.start ∧
    width (before ++ chars) = span.stop

theorem append_inj_of_width {as bs cs ds : List Char} (h : as ++ bs = cs ++ ds)
    (hwidth : width as = width cs) : as = cs ∧ bs = ds := by
  have hnil : ∀ {es : List Char}, width es = 0 → es = [] := by
    intro es hes
    by_contra hne
    exact absurd hes (Nat.pos_iff_ne_zero.1 (width_pos hne))
  rcases List.append_eq_append_iff.1 h with ⟨es, rfl, rfl⟩ | ⟨es, rfl, rfl⟩
  · rw [width_append] at hwidth
    rw [hnil (by omega : width es = 0)]
    simp
  · rw [width_append] at hwidth
    rw [hnil (by omega : width es = 0)]
    simp

end Text

namespace Lexer

open Text

/-! ### No character is lost -/

theorem chars_one {mode : Mode} {token : Option Token} {c : Char} {cs behind : List Char}
    (h : behind <+: cs) :
    (Step.one mode token c behind).pieces.flatMap Piece.chars ++
      cs.drop (Step.one mode token c behind).extra = c :: cs := by
  obtain ⟨rest, rfl⟩ := h
  simp [Step.one]

theorem chars_step {mode : Mode} {c : Char} {cs : List Char} {s : Step} (h : step mode c cs = .ok s) :
    s.pieces.flatMap Piece.chars ++ cs.drop s.extra = c :: cs := by
  cases mode with
  | text =>
    have hcases : TextStep c cs s := Except.ok.inj h ▸ textStep_cases c cs
    cases hcases with
    | plain => exact chars_one (List.takeWhile_prefix _)
    | escaped hc hcs =>
      subst hc hcs
      exact chars_one ⟨_, rfl⟩
    | backslash hc =>
      subst hc
      exact chars_one List.nil_prefix
    | indicator hc _ _ hcs =>
      subst hc
      exact chars_one hcs
    | anonymous hc hcs =>
      obtain ⟨rest, rfl⟩ := hcs
      simp [hc]
    | named hc _ hcs =>
      obtain ⟨rest, rfl⟩ := hcs
      simp [hc, List.drop_append]
    | otherwise hc _ hcs =>
      obtain ⟨rest, rfl⟩ := hcs
      simp [hc, List.drop_append]
    | keyword hc _ hcs =>
      obtain ⟨rest, rfl⟩ := hcs
      simp [hc]
  | params named depth =>
    cases paramStep_cases h with
    | skip _ hcs => exact chars_one hcs
    | token _ _ _ hcs => exact chars_one hcs
    | close _ _ hc =>
      subst hc
      exact chars_one List.nil_prefix
    | opened _ _ hc hcs =>
      obtain ⟨rest, rfl⟩ := hcs
      simp [hc]

theorem chars_cut {mode : Mode} {cs : List Char} (h : (cut mode cs).fault = none) :
    (cut mode cs).pieces.flatMap Piece.chars = cs := by
  induction mode, cs using cut.induct with
  | case1 mode => rw [cut]; rfl
  | case2 mode c cs fault hs =>
    rw [cut, hs] at h
    cases h
  | case3 mode c cs s hs ih =>
    rw [cut, hs] at h ⊢
    rw [List.flatMap_append, ih h]
    exact chars_step hs

theorem chars_joinRaw (ps : List Piece) : (joinRaw ps).flatMap Piece.chars = ps.flatMap Piece.chars := by
  fun_induction joinRaw ps with
  | case1 => rfl
  | case2 ps a cs b ds rest hjoin ih =>
    rw [List.flatMap_cons, List.flatMap_cons, ← ih, hjoin, List.flatMap_cons, List.append_assoc]
  | case3 p ps _ ih => rw [List.flatMap_cons, List.flatMap_cons, ih]

/-! ### What the pieces are -/

/-- The pieces of a text, from literal text or from parameters on. -/
inductive Tiled : Mode → List Piece → Prop where
  | done : Tiled .text []
  | raw {a : String} {chars : List Char} {ps : List Piece} (hne : chars ≠ [])
    (ha : a.toList = unguarded chars) (h : Tiled .text ps) : Tiled .text (⟨some (.raw a), chars⟩ :: ps)
  | anonymous {ps : List Piece} (h : Tiled (.params false 0) ps) :
    Tiled .text (⟨none, ['#']⟩ :: ⟨some .paramsOpen, ['(']⟩ :: ps)
  | named {name : List Char} {ps : List Piece} (h : Tiled (.params true 0) ps) :
    Tiled .text (⟨some (.tag (String.ofList name)), '#' :: name⟩ :: ⟨some .paramsOpen, ['(']⟩ :: ps)
  | otherwise {name : List Char} {ps : List Piece} (h : Tiled .text ps) :
    Tiled .text (⟨some (.tag (String.ofList name)), '#' :: name⟩ :: ⟨some .bodyStart, [':']⟩ :: ps)
  | keyword {name : List Char} {ps : List Piece} (h : Tiled .text ps) :
    Tiled .text (⟨some (.tag (String.ofList name)), '#' :: name⟩ :: ps)
  | skip {named : Bool} {depth : Nat} {chars : List Char} {ps : List Piece} (hne : chars ≠ [])
    (hblank : ∀ c ∈ chars, isParamBlank c = true) (h : Tiled (.params named depth) ps) :
    Tiled (.params named depth) (⟨none, chars⟩ :: ps)
  | param {named : Bool} {depth depth' : Nat} (t : ParamToken) {chars : List Char} {ps : List Piece}
    (hne : chars ≠ []) (h : Tiled (.params named depth') ps) :
    Tiled (.params named depth) (⟨some (.param t), chars⟩ :: ps)
  | close {named : Bool} {depth : Nat} {ps : List Piece} (h : Tiled .text ps) :
    Tiled (.params named depth) (⟨some .paramsClose, [')']⟩ :: ps)
  | opened {depth : Nat} {ps : List Piece} (h : Tiled .text ps) :
    Tiled (.params true depth) (⟨some .paramsClose, [')']⟩ :: ⟨some .bodyStart, [':']⟩ :: ps)

/-- Raw text in front of pieces, if it means what it says in front of each raw text there may be. -/
theorem Tiled.joinRaw_cons {a : String} {chars : List Char} {ps : List Piece} (h : Tiled .text (joinRaw ps))
    (hne : chars ≠ []) (ha : ∀ more, more <+: ps.flatMap Piece.chars →
      unguarded (chars ++ more) = a.toList ++ unguarded more) :
    Tiled .text (joinRaw (⟨some (.raw a), chars⟩ :: ps)) := by
  have hmeans : a.toList = unguarded chars := by
    have := ha [] List.nil_prefix
    rwa [List.append_nil, unguarded, List.append_nil, eq_comm] at this
  by_cases hjoin : ∃ b more rest, joinRaw ps = ⟨some (.raw b), more⟩ :: rest
  · obtain ⟨b, more, rest, hjoin⟩ := hjoin
    have hmore : more <+: ps.flatMap Piece.chars := by
      rw [← chars_joinRaw, hjoin, List.flatMap_cons]
      exact List.prefix_append _ _
    rw [joinRaw.eq_2 ps a chars b more rest hjoin]
    rw [hjoin] at h
    cases h with
    | raw _ hb h =>
      refine .raw (List.append_ne_nil_of_left_ne_nil hne _) ?_ h
      rw [String.toList_append, hb, ha more hmore]
  · rw [joinRaw.eq_3 ps _ fun _ _ b more rest _ hps => hjoin ⟨b, more, rest, hps⟩]
    exact .raw hne hmeans h

/-- One step puts its pieces in front of those behind it. -/
theorem Tiled.step {mode : Mode} {c : Char} {cs : List Char} {s : Step} (hs : Lexer.step mode c cs = .ok s)
    {ps : List Piece} (hps : ps.flatMap Piece.chars = cs.drop s.extra) (h : Tiled s.mode (joinRaw ps)) :
    Tiled mode (joinRaw (s.pieces ++ ps)) := by
  cases mode with
  | text =>
    have hcases : TextStep c cs s := Except.ok.inj hs ▸ textStep_cases c cs
    cases hcases with
    | plain hc hrun =>
      refine h.joinRaw_cons (List.cons_ne_nil _ _) fun more _ => ?_
      rw [String.toList_ofList]
      refine unguarded_append (fun hmem => ?_) more
      have hplain : ∀ d ∈ c :: cs.takeWhile isPlain, isPlain d = true :=
        List.forall_mem_cons.2 ⟨hc, hrun⟩
      exact absurd (hplain _ hmem) (by decide)
    | escaped => exact h.joinRaw_cons (List.cons_ne_nil _ _) fun _ _ => rfl
    | backslash _ hcs =>
      refine h.joinRaw_cons (List.cons_ne_nil _ _) fun more hmore => ?_
      obtain ⟨rest, hmore⟩ := hmore
      have hcs' : cs = more ++ rest := (hmore.trans hps).symm
      refine unguarded_cons fun _ (hhead : more.head? = some '#') => hcs ?_
      rw [hcs', List.head?_append, hhead]
      rfl
    | indicator _ behind hpart =>
      refine h.joinRaw_cons (List.cons_ne_nil _ _) fun more _ => ?_
      rw [String.toList_ofList]
      refine unguarded_append (fun hmem => ?_) more
      rcases List.mem_cons.1 hmem with hmem | hmem
      · exact absurd hmem (by decide)
      · exact absurd (hpart _ hmem) (by decide)
    | anonymous => exact .anonymous h
    | named => exact .named h
    | otherwise => exact .otherwise h
    | keyword => exact .keyword h
  | params named depth =>
    cases paramStep_cases hs with
    | skip _ _ hblank => exact .skip (List.cons_ne_nil _ _) hblank h
    | token _ t => exact .param t (List.cons_ne_nil _ _) h
    | close => exact .close h
    | opened hnamed =>
      subst hnamed
      exact .opened h

theorem tiled_cut {mode : Mode} {cs : List Char} (h : (cut mode cs).fault = none) :
    Tiled mode (joinRaw (cut mode cs).pieces) := by
  induction mode, cs using cut.induct with
  | case1 mode =>
    rw [cut] at h ⊢
    cases mode with
    | text => exact .done
    | params => cases h
  | case2 mode c cs fault hs =>
    rw [cut, hs] at h
    cases h
  | case3 mode c cs s hs ih =>
    rw [cut, hs] at h ⊢
    exact .step hs (chars_cut h) (ih h)

/-! ### Pieces without a token -/

/-- A piece that may stand between the parentheses of a tag. -/
def IsParam (p : Piece) : Prop := ∀ t, p.token = some t → ∃ param, t = .param param

/-- The pieces up to the parenthesis that closes the parameters. -/
def Closes (ps : List Piece) : Prop :=
  ∃ ws zs, ps = ws ++ ⟨some .paramsClose, [')']⟩ :: zs ∧ ∀ p ∈ ws, IsParam p

theorem Closes.cons {p : Piece} {ps : List Piece} (hp : IsParam p) (h : Closes ps) : Closes (p :: ps) := by
  obtain ⟨ws, zs, rfl, hws⟩ := h
  exact ⟨p :: ws, zs, rfl, List.forall_mem_cons.2 ⟨hp, hws⟩⟩

theorem isParam_none (chars : List Char) : IsParam ⟨none, chars⟩ := nofun

theorem isParam_param (t : ParamToken) (chars : List Char) : IsParam ⟨some (.param t), chars⟩ :=
  fun _ h => ⟨t, (Option.some.inj h).symm⟩

theorem Tiled.closes {mode : Mode} {ps : List Piece} (h : Tiled mode ps) (hmode : mode ≠ .text) :
    Closes ps := by
  induction h with
  | skip _ _ _ ih => exact (ih Mode.noConfusion).cons (isParam_none _)
  | param t _ _ ih => exact (ih Mode.noConfusion).cons (isParam_param t _)
  | close => exact ⟨[], _, rfl, nofun⟩
  | opened => exact ⟨[], _, rfl, nofun⟩
  | _ => exact absurd rfl hmode

/-- The pieces before some in parameters: from the parenthesis that opens these on, or from within them. -/
def Opens (mode : Mode) (ps : List Piece) : Prop :=
  (∃ us vs, ps = us ++ ⟨some .paramsOpen, ['(']⟩ :: vs ∧ ∀ p ∈ vs, IsParam p) ∨
    mode ≠ .text ∧ ∀ p ∈ ps, IsParam p

/-- Characters without a token, between the pieces before and behind them. -/
inductive Gap (mode : Mode) (before : List Piece) (chars : List Char) (behind : List Piece) : Prop where
  | indicator {ps : List Piece} (hchars : chars = ['#'])
    (hbehind : behind = ⟨some .paramsOpen, ['(']⟩ :: ps)
  | blank (hblank : ∀ c ∈ chars, isParamBlank c = true) (hbefore : Opens mode before)
    (hbehind : Closes behind)

section Gap

variable {mode : Mode} {before behind : List Piece} {chars : List Char}

theorem Opens.cons (h : Opens .text before) (p : Piece) (mode : Mode) : Opens mode (p :: before) := by
  rcases h with ⟨us, vs, rfl, hvs⟩ | ⟨hmode, -⟩
  · exact .inl ⟨p :: us, vs, rfl, hvs⟩
  · exact absurd rfl hmode

theorem Opens.cons_paramsOpen (h : Opens mode before) :
    Opens .text (⟨some .paramsOpen, ['(']⟩ :: before) := by
  rcases h with ⟨us, vs, rfl, hvs⟩ | ⟨-, hbefore⟩
  · exact .inl ⟨_ :: us, vs, rfl, hvs⟩
  · exact .inl ⟨[], before, rfl, hbefore⟩

theorem Opens.cons_param {named : Bool} {depth : Nat} (h : Opens mode before) {p : Piece} (hp : IsParam p) :
    Opens (.params named depth) (p :: before) := by
  rcases h with ⟨us, vs, rfl, hvs⟩ | ⟨-, hbefore⟩
  · exact .inl ⟨p :: us, vs, rfl, hvs⟩
  · exact .inr ⟨Mode.noConfusion, List.forall_mem_cons.2 ⟨hp, hbefore⟩⟩

theorem Gap.imp {mode' : Mode} {before' : List Piece} (h : Gap mode before chars behind)
    (hopens : Opens mode before → Opens mode' before') : Gap mode' before' chars behind := by
  cases h with
  | indicator hchars hbehind => exact .indicator hchars hbehind
  | blank hblank hbefore hbehind => exact .blank hblank (hopens hbefore) hbehind

end Gap

theorem exists_of_cons_eq {p : Piece} {ps before behind : List Piece} {chars : List Char}
    (h : p :: ps = before ++ ⟨none, chars⟩ :: behind) (hp : p.token ≠ none) :
    ∃ xs, before = p :: xs ∧ ps = xs ++ ⟨none, chars⟩ :: behind := by
  rcases List.cons_eq_append_iff.1 h with ⟨-, hcons⟩ | hxs
  · exact absurd (congrArg Piece.token (List.cons.inj hcons).1).symm hp
  · exact hxs

/-- A piece without a token is the indicator of a tag without a name, or blanks in parameters. -/
theorem Tiled.gap {mode : Mode} {ps : List Piece} (h : Tiled mode ps) {before behind : List Piece}
    {chars : List Char} (hps : ps = before ++ ⟨none, chars⟩ :: behind) : Gap mode before chars behind := by
  induction h generalizing before with
  | done => exact absurd hps (by simp)
  | raw _ _ _ ih =>
    obtain ⟨xs, rfl, hxs⟩ := exists_of_cons_eq hps nofun
    exact (ih hxs).imp fun h => h.cons _ _
  | anonymous _ ih =>
    rcases List.cons_eq_append_iff.1 hps with ⟨rfl, hp⟩ | ⟨xs, rfl, hxs⟩
    · cases hp
      exact .indicator rfl rfl
    · obtain ⟨ys, rfl, hys⟩ := exists_of_cons_eq hxs nofun
      exact (ih hys).imp fun h => h.cons_paramsOpen.cons _ _
  | named _ ih =>
    obtain ⟨xs, rfl, hxs⟩ := exists_of_cons_eq hps nofun
    obtain ⟨ys, rfl, hys⟩ := exists_of_cons_eq hxs nofun
    exact (ih hys).imp fun h => h.cons_paramsOpen.cons _ _
  | otherwise _ ih =>
    obtain ⟨xs, rfl, hxs⟩ := exists_of_cons_eq hps nofun
    obtain ⟨ys, rfl, hys⟩ := exists_of_cons_eq hxs nofun
    exact (ih hys).imp fun h => (h.cons _ .text).cons _ _
  | keyword _ ih =>
    obtain ⟨xs, rfl, hxs⟩ := exists_of_cons_eq hps nofun
    exact (ih hxs).imp fun h => h.cons _ _
  | skip _ hblank h ih =>
    rcases List.cons_eq_append_iff.1 hps with ⟨rfl, hp⟩ | ⟨xs, rfl, hxs⟩
    · cases hp
      exact .blank hblank (.inr ⟨Mode.noConfusion, nofun⟩) (h.closes Mode.noConfusion)
    · exact (ih hxs).imp fun h => h.cons_param (isParam_none _)
  | param t _ _ ih =>
    obtain ⟨xs, rfl, hxs⟩ := exists_of_cons_eq hps nofun
    exact (ih hxs).imp fun h => h.cons_param (isParam_param t _)
  | close _ ih =>
    obtain ⟨xs, rfl, hxs⟩ := exists_of_cons_eq hps nofun
    exact (ih hxs).imp fun h => h.cons _ _
  | opened _ ih =>
    obtain ⟨xs, rfl, hxs⟩ := exists_of_cons_eq hps nofun
    obtain ⟨ys, rfl, hys⟩ := exists_of_cons_eq hxs nofun
    exact (ih hys).imp fun h => (h.cons _ .text).cons _ _

/-! ### Spans -/

theorem lexemes_append (start : Nat) (ps qs : List Piece) : lexemes start (ps ++ qs) =
    lexemes start ps ++ lexemes (start + width (ps.flatMap Piece.chars)) qs := by
  induction ps generalizing start with
  | nil => rfl
  | cons p ps ih =>
    obtain ⟨token, chars⟩ := p
    rw [List.flatMap_cons, width_append, ← Nat.add_assoc]
    cases token with
    | none => exact ih _
    | some token => exact congrArg (List.cons _) (ih _)

/-- A token stands where the pieces before it end. -/
theorem exists_of_lexemes_eq {start : Nat} {ps : List Piece} {before after : List Lexeme} {l : Lexeme}
    (h : lexemes start ps = before ++ l :: after) :
    ∃ xs chars ys, ps = xs ++ ⟨some l.token, chars⟩ :: ys ∧
      l.span = ⟨start + width (xs.flatMap Piece.chars),
        start + width (xs.flatMap Piece.chars) + width chars⟩ ∧
      lexemes start xs = before ∧ lexemes l.span.stop ys = after := by
  induction ps generalizing start before with
  | nil => exact absurd h (by simp [lexemes])
  | cons p ps ih =>
    obtain ⟨token, chars⟩ := p
    have hplace : ∀ xs : List Piece, start + width ((⟨token, chars⟩ :: xs).flatMap Piece.chars) =
        start + width chars + width (xs.flatMap Piece.chars) := by
      intro xs
      rw [List.flatMap_cons, width_append, Nat.add_assoc]
    cases token with
    | none =>
      obtain ⟨xs, cs, ys, rfl, hspan, hxs, hys⟩ := ih h
      exact ⟨⟨none, chars⟩ :: xs, cs, ys, rfl, by rw [hplace, hspan], hxs, hys⟩
    | some token =>
      rcases List.cons_eq_append_iff.1 h with ⟨rfl, hl⟩ | ⟨more, rfl, hmore⟩
      · obtain ⟨rfl, rfl⟩ := List.cons.inj hl
        exact ⟨[], chars, ps, rfl, rfl, rfl, rfl⟩
      · obtain ⟨xs, cs, ys, rfl, hspan, hxs, hys⟩ := ih hmore
        exact ⟨⟨some token, chars⟩ :: xs, cs, ys, rfl, by rw [hplace, hspan],
          congrArg (List.cons _) hxs, hys⟩

theorem exists_of_mem_lexemes {start : Nat} {ps : List Piece} {l : Lexeme} (h : l ∈ lexemes start ps) :
    ∃ xs chars ys, ps = xs ++ ⟨some l.token, chars⟩ :: ys ∧
      l.span = ⟨start + width (xs.flatMap Piece.chars),
        start + width (xs.flatMap Piece.chars) + width chars⟩ := by
  obtain ⟨before, after, hls⟩ := List.append_of_mem h
  obtain ⟨xs, chars, ys, hps, hspan, -⟩ := exists_of_lexemes_eq hls
  exact ⟨xs, chars, ys, hps, hspan⟩

theorem le_start_of_mem {start : Nat} {ps : List Piece} {l : Lexeme} (h : l ∈ lexemes start ps) :
    start ≤ l.span.start := by
  obtain ⟨_, _, _, -, hspan⟩ := exists_of_mem_lexemes h
  rw [hspan]
  exact Nat.le_add_right _ _

theorem pairwise_lexemes (start : Nat) (ps : List Piece) :
    (lexemes start ps).Pairwise fun l next => l.span.stop ≤ next.span.start := by
  induction ps generalizing start with
  | nil => exact .nil
  | cons p ps ih =>
    obtain ⟨token, chars⟩ := p
    cases token with
    | none => exact ih _
    | some token => exact List.pairwise_cons.2 ⟨fun _ h => le_start_of_mem h, ih _⟩

theorem Tiled.ne_nil {mode : Mode} {ps : List Piece} (h : Tiled mode ps) : ∀ p ∈ ps, p.chars ≠ [] := by
  induction h with
  | done => exact nofun
  | _ => simp_all

theorem Tiled.unguarded {mode : Mode} {ps : List Piece} (h : Tiled mode ps) {a : String} {chars : List Char}
    (hmem : ⟨some (.raw a), chars⟩ ∈ ps) : a.toList = unguarded chars := by
  induction h with
  | done => cases hmem
  | raw _ ha _ ih =>
    rcases List.mem_cons.1 hmem with he | hmem
    · cases he
      exact ha
    · exact ih hmem
  | _ => simp_all

theorem exists_tiled_of_lex {source : String} {ls : List Lexeme} (h : lex source = .ok ls) :
    ∃ ps, Tiled .text ps ∧ ps.flatMap Piece.chars = source.toList ∧ lexemes 0 ps = ls := by
  unfold lex at h
  dsimp only at h
  split at h
  · next hfault =>
    exact ⟨_, tiled_cut hfault, (chars_joinRaw _).trans (chars_cut hfault), Except.ok.inj h⟩
  · cases h

/-- The piece that a character is in. -/
theorem exists_piece {ps : List Piece} {before after : List Char} {c : Char}
    (h : ps.flatMap Piece.chars = before ++ c :: after) :
    ∃ xs p ys cs ds, ps = xs ++ p :: ys ∧ p.chars = cs ++ c :: ds ∧
      before = xs.flatMap Piece.chars ++ cs ∧ after = ds ++ ys.flatMap Piece.chars := by
  induction ps generalizing before with
  | nil => exact absurd h (by simp)
  | cons p ps ih =>
    rw [List.flatMap_cons] at h
    rcases List.append_eq_append_iff.1 h with ⟨more, rfl, hmore⟩ | ⟨rest, hp, hrest⟩
    · obtain ⟨xs, q, ys, cs, ds, rfl, hq, rfl, rfl⟩ := ih hmore
      exact ⟨p :: xs, q, ys, cs, ds, rfl, hq, by rw [List.flatMap_cons, List.append_assoc], rfl⟩
    · cases rest with
      | nil =>
        have hnext : ps.flatMap Piece.chars = [] ++ c :: after := hrest.symm
        obtain ⟨xs, q, ys, cs, ds, rfl, hq, hbefore, rfl⟩ := ih hnext
        refine ⟨p :: xs, q, ys, cs, ds, rfl, hq, ?_, rfl⟩
        rw [List.flatMap_cons, List.append_assoc, ← hbefore, hp, List.append_nil]
        simp
      | cons d rest =>
        obtain ⟨rfl, rfl⟩ := List.cons.inj hrest
        exact ⟨[], p, ps, before, rest, rfl, hp, rfl, rfl⟩

end Lexer

/-! ### Nothing is lost -/

open Lexer Text

/-- A place between the parentheses of a tag. -/
def InParams (ls : List Lexeme) (place : Nat) : Prop :=
  ∃ front opening params closing back, ls = front ++ opening :: (params ++ closing :: back) ∧
    opening.token = .paramsOpen ∧ closing.token = .paramsClose ∧ (∀ l ∈ params, ∃ t, l.token = .param t) ∧
      opening.span.stop ≤ place ∧ place < closing.span.start

/-- Tokens with their spans, in a text of which they leave nothing out but what separates them. -/
structure Covers (source : List Char) (ls : List Lexeme) : Prop where
  placed : ∀ l ∈ ls, l.span.start < l.span.stop ∧ ∃ chars, StandsAt source l.span chars ∧
    ∀ text, l.token = .raw text → text.toList = unguarded chars
  ordered : ls.Pairwise fun l next => l.span.stop ≤ next.span.start
  apart : ls.IsChain fun l next => ∀ text other, l.token = .raw text → next.token ≠ .raw other
  between : ∀ before c after, source = before ++ c :: after →
    (∀ l ∈ ls, ¬ (l.span.start ≤ width before ∧ width before < l.span.stop)) →
      (c = '#' ∧ after.head? = some '(' ∧
        ∃ l ∈ ls, l.token = .paramsOpen ∧ l.span = ⟨width before + 1, width before + 2⟩) ∨
      (isParamBlank c = true ∧ InParams ls (width before))

theorem exists_param_of_mem {start : Nat} {ps : List Piece} (h : ∀ p ∈ ps, IsParam p) {l : Lexeme}
    (hl : l ∈ lexemes start ps) : ∃ t, l.token = .param t := by
  obtain ⟨xs, chars, ys, rfl, -⟩ := exists_of_mem_lexemes hl
  exact h _ (List.mem_append_right xs List.mem_cons_self) _ rfl

theorem standsAt_of_mem {ps : List Piece} {l : Lexeme} (hl : l ∈ lexemes 0 ps) :
    ∃ chars, ⟨some l.token, chars⟩ ∈ ps ∧ l.span.stop = l.span.start + width chars ∧
      StandsAt (ps.flatMap Piece.chars) l.span chars := by
  obtain ⟨xs, chars, ys, rfl, hspan⟩ := exists_of_mem_lexemes hl
  rw [Nat.zero_add] at hspan
  refine ⟨chars, List.mem_append_right xs List.mem_cons_self, by rw [hspan], xs.flatMap Piece.chars,
    ys.flatMap Piece.chars, ?_, by rw [hspan], by rw [hspan, width_append]⟩
  rw [List.flatMap_append, List.flatMap_cons]

theorem inParams_of_gap {xs ys : List Piece} {p : Piece} (hp : p.token = none) (hopens : Opens .text xs)
    (hcloses : Closes ys) {place : Nat} (hstart : width (xs.flatMap Piece.chars) ≤ place)
    (hstop : place < width ((xs ++ [p]).flatMap Piece.chars)) :
    InParams (lexemes 0 (xs ++ p :: ys)) place := by
  obtain ⟨us, vs, rfl, hvs⟩ := hopens.resolve_right fun h => h.1 rfl
  obtain ⟨ws, zs, rfl, hws⟩ := hcloses
  obtain ⟨token, chars⟩ := p
  obtain rfl : token = none := hp
  have hparams : ∀ q ∈ vs ++ ⟨none, chars⟩ :: ws, IsParam q :=
    List.forall_mem_append.2 ⟨hvs, List.forall_mem_cons.2 ⟨isParam_none chars, hws⟩⟩
  -- the blanks are taken together with the parameters around them
  have hwhole : us ++ ⟨some .paramsOpen, ['(']⟩ :: vs ++
      ⟨none, chars⟩ :: (ws ++ ⟨some .paramsClose, [')']⟩ :: zs) =
      us ++ ⟨some .paramsOpen, ['(']⟩ ::
        (vs ++ ⟨none, chars⟩ :: ws ++ ⟨some .paramsClose, [')']⟩ :: zs) := by simp
  rw [hwhole, lexemes_append, lexemes, lexemes_append, lexemes]
  refine ⟨_, _, _, _, _, rfl, rfl, rfl, fun l hl => exists_param_of_mem hparams hl, ?_, ?_⟩
  · simp only [List.flatMap_append, List.flatMap_cons, width_append] at hstart ⊢
    omega
  · simp only [List.flatMap_append, List.flatMap_cons, List.flatMap_nil, List.append_nil, width_append]
      at hstop ⊢
    omega

theorem between_of_tiled {ps : List Piece} (h : Tiled .text ps) {before after : List Char} {c : Char}
    (hc : ps.flatMap Piece.chars = before ++ c :: after)
    (hnone : ∀ l ∈ lexemes 0 ps, ¬ (l.span.start ≤ width before ∧ width before < l.span.stop)) :
    (c = '#' ∧ after.head? = some '(' ∧
        ∃ l ∈ lexemes 0 ps, l.token = .paramsOpen ∧ l.span = ⟨width before + 1, width before + 2⟩) ∨
      (isParamBlank c = true ∧ InParams (lexemes 0 ps) (width before)) := by
  obtain ⟨xs, ⟨token, chars⟩, ys, cs, ds, rfl, hp, rfl, rfl⟩ := exists_piece hc
  obtain rfl : chars = cs ++ c :: ds := hp
  have hcs : width cs < width (cs ++ c :: ds) := by
    rw [width_append]
    exact Nat.lt_add_of_pos_right (width_pos (List.cons_ne_nil c ds))
  cases token with
  | some token =>
    -- a piece with a token covers all of its characters
    have hmem : ⟨token, ⟨0 + width (xs.flatMap Piece.chars),
        0 + width (xs.flatMap Piece.chars) + width (cs ++ c :: ds)⟩⟩ ∈
          lexemes 0 (xs ++ ⟨some token, cs ++ c :: ds⟩ :: ys) := by
      rw [lexemes_append]
      exact List.mem_append_right _ List.mem_cons_self
    refine absurd ?_ (hnone _ hmem)
    rw [Nat.zero_add, width_append (xs.flatMap Piece.chars) cs]
    exact ⟨Nat.le_add_right _ _, Nat.add_lt_add_left hcs _⟩
  | none =>
    cases h.gap rfl with
    | @indicator zs hchars hbehind =>
      left
      subst hbehind
      cases cs with
      | cons d cs => exact absurd hchars (by simp)
      | nil =>
        obtain ⟨rfl, rfl⟩ := List.cons.inj hchars
        refine ⟨rfl, rfl, ⟨.paramsOpen, ⟨width (xs.flatMap Piece.chars) + 1,
          width (xs.flatMap Piece.chars) + 2⟩⟩, ?_, rfl, by rw [List.append_nil]⟩
        rw [lexemes_append, Nat.zero_add]
        exact List.mem_append_right _ List.mem_cons_self
    | blank hblank hopens hcloses =>
      right
      refine ⟨hblank c (List.mem_append_right cs List.mem_cons_self),
        inParams_of_gap rfl hopens hcloses ?_ ?_⟩
      · rw [width_append]
        exact Nat.le_add_right _ _
      · rw [List.flatMap_append, width_append, width_append]
        exact Nat.add_lt_add_left (by simpa using hcs) _

/-- Of a text that has tokens nothing is lost: each token stands where its span says, raw text as it is
written there, and between the tokens are only indicators of tags without a name and blanks in parameters. -/
theorem covers_of_lex {source : String} {ls : List Lexeme} (h : lex source = .ok ls) :
    Covers source.toList ls := by
  have hstream := stream_of_scan (scan_of_lex h)
  obtain ⟨ps, htiled, hsource, rfl⟩ := exists_tiled_of_lex h
  refine ⟨fun l hl => ?_, pairwise_lexemes 0 ps, ?_, fun before c after hc => ?_⟩
  · obtain ⟨chars, hmem, hstop, hstands⟩ := standsAt_of_mem hl
    have hpos : 0 < width chars := width_pos (htiled.ne_nil _ hmem)
    rw [hsource] at hstands
    refine ⟨by omega, chars, hstands, fun text htext => ?_⟩
    rw [htext] at hmem
    exact htiled.unguarded hmem
  · have hapart := hstream.isChain_apart
    unfold tokens at hapart
    refine ((List.isChain_map _).1 hapart).imp fun l next hl text other htext hother => ?_
    have hraw := (hl text htext).1
    rw [hother] at hraw
    exact hraw trivial
  · exact between_of_tiled htiled (hsource.trans hc)

/-- A guarded `#` in raw text, a tag without a name and blanks in its parentheses. -/
def guardedAndBlank : String := "x\\#y#( a )#else"

def guardedAndBlankLexemes : List Lexeme :=
  [⟨.raw "x#y", ⟨0, 4⟩⟩, ⟨.paramsOpen, ⟨5, 6⟩⟩, ⟨.param (.ident "a"), ⟨7, 8⟩⟩, ⟨.paramsClose, ⟨9, 10⟩⟩,
    ⟨.tag "else", ⟨10, 15⟩⟩]

theorem covers_guardedAndBlank : lex guardedAndBlank = .ok guardedAndBlankLexemes ∧
    Covers guardedAndBlank.toList guardedAndBlankLexemes := by
  have hlex : lex guardedAndBlank = .ok guardedAndBlankLexemes := by decide +kernel
  exact ⟨hlex, covers_of_lex hlex⟩

end Templating
