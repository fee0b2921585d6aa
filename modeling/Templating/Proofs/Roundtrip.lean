import Templating.Proofs.Acceptance
import Templating.Proofs.Bodies
import Templating.Proofs.Printing

/-!
# Scanned sources of nodes

Each piece of a node's source is scanned to its tokens and then what is behind it: a name in front of its
parameters, raw text in front of a tag, a body in front of the tag that ends it. A node needs little of the
text behind it, and whatever it needs is said of that text alone.
-/

namespace Templating

namespace Lexer

open Text

/-! ### Tags in literal text -/

theorem ne_parenOpen_of_isNameStart {c : Char} (h : isNameStart c = true) : c ≠ '(' := by
  rintro rfl
  exact absurd h (by decide)

/-- The step over an indicator and the name behind it, by what follows the name. -/
def namedStep (name : String) (rest : List Char) : Step :=
  let tag : Piece := ⟨some (.tag name), '#' :: name.toList⟩
  let plain : Step :=
    if isKeywordTag name then ⟨[tag], name.toList.length, .text⟩
    else .one .text (some (.raw (String.ofList ('#' :: name.toList)))) '#' name.toList
  match rest with
  | '(' :: _ => ⟨[tag, ⟨some .paramsOpen, ['(']⟩], name.toList.length + 1, .params true 0⟩
  | ':' :: _ =>
    if name = "else" then ⟨[tag, ⟨some .bodyStart, [':']⟩], name.toList.length + 1, .text⟩ else plain
  | _ => plain

theorem indicatorStep_eq_namedStep {name : String} (hname : IsName name) {rest : List Char}
    (hrest : StopsAt isNamePart rest) : indicatorStep (name.toList ++ rest) = namedStep name rest := by
  obtain ⟨c, cs, hcs, hstart, hpart⟩ := hname
  have hall : ∀ d ∈ name.toList, isNamePart d = true := by
    rw [hcs]
    refine List.forall_mem_cons.2 ⟨?_, hpart⟩
    rw [isNamePart, hstart, Bool.true_or]
  have hopen : c ≠ '(' := ne_parenOpen_of_isNameStart hstart
  unfold indicatorStep namedStep
  rw [takeWhile_append_of_stopsAt hall hrest, dropWhile_append_of_stopsAt hall hrest]
  dsimp only
  rw [String.ofList_toList]
  split
  · next more heq =>
    rw [hcs] at heq
    exact absurd (List.cons.inj heq).1 hopen
  · next d more _ heq =>
    rw [hcs] at heq
    exact if_pos ((List.cons.inj heq).1 ▸ hstart)
  · next heq =>
    rw [hcs] at heq
    cases heq

theorem scan_tag {name : String} (hname : IsName name) (cs : List Char) :
    scan .text ('#' :: (name.toList ++ '(' :: cs)) =
      inFront [.tag name, .paramsOpen] (scan (.params true 0) cs) := by
  have hstep : step .text '#' (name.toList ++ '(' :: cs) = .ok (namedStep name ('(' :: cs)) :=
    congrArg Except.ok (indicatorStep_eq_namedStep hname (stopsAt_cons (by decide)))
  have hdrop : (name.toList ++ '(' :: cs).drop (name.toList.length + 1) = cs := by
    rw [List.drop_append]
    simp
  rw [scan_cons hstep]
  show (scan (.params true 0) ((name.toList ++ '(' :: cs).drop (name.toList.length + 1))).map _ = _
  rw [hdrop]
  rfl

theorem scan_else (cs : List Char) :
    scan .text ("#else:".toList ++ cs) = inFront [.tag "else", .bodyStart] (scan .text cs) := by
  have hname : IsName "else" := by decide
  have hstop : StopsAt isNamePart (':' :: cs) := stopsAt_cons (by decide)
  have hstep : step .text '#' ("else".toList ++ ':' :: cs) = .ok (namedStep "else" (':' :: cs)) :=
    congrArg Except.ok (indicatorStep_eq_namedStep hname hstop)
  exact scan_cons hstep

/-- Where the name of a closing tag ends: what follows neither continues it nor gives it parameters. -/
def EndsTag (cs : List Char) : Prop := ∀ c ∈ cs.head?, isNamePart c = false ∧ c ≠ '('

theorem scan_keyword {name : String} (hname : IsName name) (hkeyword : isKeywordTag name = true)
    (hne : name ≠ "else") {cs : List Char} (hcs : EndsTag cs) :
    scan .text ('#' :: (name.toList ++ cs)) = inFront [.tag name] (scan .text cs) := by
  have hnamed : namedStep name cs = ⟨[⟨some (.tag name), '#' :: name.toList⟩], name.toList.length, .text⟩ := by
    unfold namedStep
    dsimp only
    rw [if_neg hne, if_pos hkeyword]
    split
    · next more => exact absurd rfl (hcs '(' rfl).2
    · rfl
    · rfl
  have hstep : step .text '#' (name.toList ++ cs) =
      .ok ⟨[⟨some (.tag name), '#' :: name.toList⟩], name.toList.length, .text⟩ := by
    rw [← hnamed]
    exact congrArg Except.ok (indicatorStep_eq_namedStep hname fun c hc => (hcs c hc).1)
  have hdrop : (name.toList ++ cs).drop name.toList.length = cs := List.drop_left
  rw [scan_cons hstep]
  show (scan .text ((name.toList ++ cs).drop name.toList.length)).map _ = _
  rw [hdrop]
  rfl

theorem scan_anonymous (cs : List Char) :
    scan .text ('#' :: '(' :: cs) = inFront [.paramsOpen] (scan (.params false 0) cs) := by
  have hstep : step .text '#' ('(' :: cs) =
      .ok ⟨[⟨none, ['#']⟩, ⟨some .paramsOpen, ['(']⟩], 1, .params false 0⟩ := rfl
  exact scan_cons hstep

theorem scan_close {named : Bool} {cs : List Char} (h : named = true → cs.head? ≠ some ':') :
    scan (.params named 0) (')' :: cs) = inFront [.paramsClose] (scan .text cs) := by
  have hclosing : closingStep named cs = .one .text (some .paramsClose) ')' [] := by
    unfold closingStep
    split
    · exact absurd rfl (h rfl)
    · rfl
  have hstep : step (.params named 0) ')' cs = .ok (.one .text (some .paramsClose) ')' []) :=
    congrArg Except.ok hclosing
  exact scan_cons hstep

theorem scan_open (cs : List Char) :
    scan (.params true 0) (')' :: ':' :: cs) = inFront [.paramsClose, .bodyStart] (scan .text cs) := by
  have hstep : step (.params true 0) ')' (':' :: cs) =
      .ok ⟨[⟨some .paramsClose, [')']⟩, ⟨some .bodyStart, [':']⟩], 1, .text⟩ := rfl
  exact scan_cons hstep

/-! ### Raw text -/

theorem consRaw_consRaw (a b : String) (ts : List Token) : consRaw a (consRaw b ts) = consRaw (a ++ b) ts := by
  by_cases h : StartsRaw ts
  · cases ts with
    | nil => exact h.elim
    | cons t ts =>
      cases t with
      | raw c => simp only [consRaw, String.append_assoc]
      | _ => exact h.elim
  · rw [consRaw_of_not h, consRaw_of_not h]
    rfl

theorem scan_plain {c : Char} (hc : isPlain c = true) (cs : List Char) :
    scan .text (c :: cs) = (scan .text cs).map (consRaw (String.singleton c)) := by
  have hrun : ∀ (c : Char) (cs : List Char), isPlain c = true → scan .text (c :: cs) =
      (scan .text (cs.dropWhile isPlain)).map (consRaw (String.ofList (c :: cs.takeWhile isPlain))) := by
    intro c cs hc
    have hne : c ≠ '#' ∧ c ≠ '\\' := by simpa [isPlain] using hc
    have hstep : step .text c (cs.takeWhile isPlain ++ cs.dropWhile isPlain) =
        .ok (.one .text (some (.raw (String.ofList (c :: cs.takeWhile isPlain)))) c
          (cs.takeWhile isPlain)) := by
      rw [List.takeWhile_append_dropWhile]
      show Except.ok (textStep c cs) = _
      unfold textStep
      rw [if_neg hne.1, if_neg hne.2]
    have hscan := scan_one hstep
    rw [List.takeWhile_append_dropWhile] at hscan
    exact hscan
  rw [hrun c cs hc]
  cases cs with
  | nil => rfl
  | cons d cs =>
    by_cases hd : isPlain d = true
    · rw [List.takeWhile_cons_of_pos hd, List.dropWhile_cons_of_pos hd, hrun d cs hd, Option.map_map]
      congr 1
      funext ts
      rw [Function.comp_apply, consRaw_consRaw, String.singleton_eq_ofList, ← String.ofList_append]
      rfl
    · rw [List.takeWhile_cons_of_neg hd, List.dropWhile_cons_of_neg hd]
      rfl

/-- Each character of raw text is read as itself, if nothing behind it makes it an escape. -/
theorem scan_guarded_char {c : Char} {cs : List Char} (h : c = '\\' → cs.head? ≠ some '#') :
    scan .text (guarded [c] ++ cs) = (scan .text cs).map (consRaw (String.singleton c)) := by
  by_cases hhash : c = '#'
  · subst hhash
    have hstep : step .text '\\' (['#'] ++ cs) = .ok (.one .text (some (.raw "#")) '\\' ['#']) := rfl
    exact scan_one hstep
  · have hguarded : guarded [c] ++ cs = c :: cs := by simp [guarded, hhash]
    rw [hguarded]
    by_cases hback : c = '\\'
    · subst hback
      have hstep : step .text '\\' ([] ++ cs) = .ok (.one .text (some (.raw "\\")) '\\' []) := by
        cases cs with
        | nil => rfl
        | cons d cs =>
          have hd : d ≠ '#' := fun he => h rfl (congrArg some he)
          show Except.ok (textStep '\\' (d :: cs)) = _
          unfold textStep
          rw [if_neg (by decide), if_pos rfl]
          split
          · next heq => exact absurd (List.cons.inj heq).1 hd
          · rfl
      exact scan_one hstep
    · exact scan_plain (by simp [isPlain, hhash, hback]) cs

theorem guarded_cons (c : Char) (cs : List Char) : guarded (c :: cs) = guarded [c] ++ guarded cs := by
  simp [guarded]

theorem head_guarded (c : Char) (cs : List Char) : (guarded (c :: cs)).head? ≠ some '#' := by
  rw [guarded, List.flatMap_cons]
  split
  · exact fun hhead => absurd (Option.some.inj hhead) (by decide)
  · next hne => exact fun hhead => hne (Option.some.inj hhead)

theorem scan_guarded {cs rest : List Char} (hcs : cs ≠ [])
    (h : cs.getLast? = some '\\' → rest.head? ≠ some '#') :
    scan .text (guarded cs ++ rest) = (scan .text rest).map (consRaw (String.ofList cs)) := by
  induction cs with
  | nil => exact absurd rfl hcs
  | cons c cs ih =>
    cases cs with
    | nil => exact scan_guarded_char fun hc => h (congrArg some hc)
    | cons d cs =>
      have hmore := ih (List.cons_ne_nil d cs) fun hlast => h ((List.getLast?_cons_cons).trans hlast)
      have hnext : (guarded (d :: cs) ++ rest).head? ≠ some '#' := by
        have hne : guarded (d :: cs) ≠ [] := by
          rw [guarded, List.flatMap_cons]
          split <;> exact List.cons_ne_nil _ _
        rw [List.head?_append_of_ne_nil _ hne]
        exact head_guarded d cs
      rw [guarded_cons, List.append_assoc, scan_guarded_char fun _ => hnext, hmore, Option.map_map]
      congr 1
      funext ts
      rw [Function.comp_apply, consRaw_consRaw, String.singleton_eq_ofList, ← String.ofList_append]
      rfl

/-! ### Parameters and bodies -/

/-- Characters that are scanned to some tokens in front of a closing parenthesis. -/
def ScansParams (ps : List Char) (ts : List Token) : Prop :=
  ∀ (named : Bool) (rest : List Char),
    scan (.params named 0) (ps ++ ')' :: rest) = inFront ts (scan (.params named 0) (')' :: rest))

theorem Prints.scansParams {e : Expr} {ts : List Token} (h : Prints e ts) : ScansParams e.source.toList ts :=
  fun named rest => h.scans named 0 (')' :: rest) ⟨')', rfl, .inl rfl⟩

theorem scansParams_literal (s : String) : ScansParams (Text.literal s).toList [.param (.text s)] :=
  fun _ rest => scan_text s (')' :: rest)

theorem scansParams_arguments {items : List Printed} (h : ∀ item ∈ items, Prints item.2 item.1) :
    ScansParams (Expr.sourceList (items.map Prod.snd)).toList
      ([.param .comma].intercalate (items.map Prod.fst)) :=
  fun _ rest => scan_arguments h rest

theorem scansParams_loop {name : String} (hname : IsIdentifier name) {e : Expr} {ts : List Token}
    (h : Prints e ts) : ScansParams (name.toList ++ " in ".toList ++ e.source.toList)
      (.param (.ident name) :: .param .in :: ts) := by
  intro named rest
  have hin : IsName "in" := by decide
  have hsource : name.toList ++ " in ".toList ++ e.source.toList ++ ')' :: rest =
      name.toList ++ ' ' :: ("in".toList ++ ' ' :: (e.source.toList ++ ')' :: rest)) := by simp
  rw [hsource, scan_identifier hname (stopsAt_cons (by decide)), scan_blank,
    scan_word hin (stopsAt_cons (by decide)), scan_blank, h.scansParams named rest, inFront_inFront,
    inFront_inFront]
  rfl

/-- The end of a body: a tag stands there. -/
def Ends (cs : List Char) : Prop := cs.head? = some '#' ∧ ∀ ts, scan .text cs = some ts → ¬ StartsRaw ts

theorem ends_of_scan {cs : List Char} {t : Token} {ts : List Token} {r : Option (List Token)}
    (hcs : cs.head? = some '#') (h : scan .text cs = inFront (t :: ts) r) (ht : ¬ StartsRaw [t]) : Ends cs := by
  refine ⟨hcs, fun us hus hraw => ?_⟩
  rw [h] at hus
  obtain ⟨vs, -, rfl⟩ := Option.map_eq_some_iff.1 hus
  cases t with
  | raw s => exact ht trivial
  | _ => exact hraw

theorem Ends.endsTag {cs : List Char} (h : Ends cs) : EndsTag cs := by
  intro c hc
  obtain rfl : '#' = c := Option.some.inj (h.1.symm.trans hc)
  exact ⟨by decide, by decide⟩

/-- Characters that are scanned to some tokens in front of the end of a body. -/
def ScansBody (cs : List Char) (ts : List Token) : Prop :=
  ∀ rest, Ends rest → scan .text (cs ++ rest) = inFront ts (scan .text rest)

/-- The names of tags that close or divide bodies and take no parameters, `else` aside. -/
structure IsClosing (name : String) : Prop where
  isName : IsName name
  isKeyword : isKeywordTag name = true
  ne_else : name ≠ "else"

theorem isClosing_end {name : String} (h : IsName name) : IsClosing ("end" ++ name) := by
  obtain ⟨c, cs, hcs, hstart, hpart⟩ := h
  have hlist : ("end" ++ name).toList = 'e' :: ('n' :: 'd' :: c :: cs) := by
    rw [String.toList_append, hcs]
    rfl
  refine ⟨⟨_, _, hlist, by decide, fun d hd => ?_⟩, ?_, fun he => ?_⟩
  · simp only [List.mem_cons] at hd
    rcases hd with rfl | rfl | rfl | hd
    · decide
    · decide
    · rw [isNamePart, hstart, Bool.true_or]
    · exact hpart d hd
  · have hlength : 3 < ("end" ++ name).length := by
      rw [← String.length_toList, hlist]
      simp
    rw [isKeywordTag, hlist, decide_eq_true hlength]
    rfl
  · rw [he] at hlist
    exact absurd (List.cons.inj (List.cons.inj hlist).2).1 (by decide)

theorem scan_closing {name : String} (h : IsClosing name) {rest : List Char} (hrest : EndsTag rest) :
    scan .text ('#' :: (name.toList ++ rest)) = inFront [.tag name] (scan .text rest) :=
  scan_keyword h.isName h.isKeyword h.ne_else hrest

theorem scan_opened {name : String} (hname : IsName name) {ps bs rest : List Char} {ts us : List Token}
    (hps : ScansParams ps ts) (hbs : ScansBody bs us) (hrest : Ends rest) :
    scan .text ('#' :: (name.toList ++ '(' :: (ps ++ ')' :: ':' :: (bs ++ rest)))) =
      inFront (.tag name :: (Grammar.inParens ts ++ .bodyStart :: us)) (scan .text rest) := by
  rw [scan_tag hname, hps, scan_open, hbs rest hrest]
  simp only [inFront_inFront, Grammar.inParens, List.cons_append, List.nil_append, List.append_assoc]

theorem scan_closed {name closing : String} (hname : IsName name) (hclosing : IsClosing closing)
    {ps bs rest : List Char} {ts us : List Token} (hps : ScansParams ps ts) (hbs : ScansBody bs us)
    (hrest : EndsTag rest) :
    scan .text ('#' :: (name.toList ++ '(' :: (ps ++ ')' :: ':' :: (bs ++ '#' :: (closing.toList ++ rest))))) =
      inFront (.tag name :: (Grammar.inParens ts ++ .bodyStart :: (us ++ [.tag closing])))
        (scan .text rest) := by
  have hend := scan_closing hclosing hrest
  rw [scan_opened hname hps hbs (ends_of_scan rfl hend id), hend, inFront_inFront]
  simp only [List.cons_append, List.append_assoc]

theorem scan_bare {name : String} (hname : IsName name) {ps rest : List Char} {ts : List Token}
    (hps : ScansParams ps ts) (hrest : rest.head? ≠ some ':') :
    scan .text ('#' :: (name.toList ++ '(' :: (ps ++ ')' :: rest))) =
      inFront (.tag name :: Grammar.inParens ts) (scan .text rest) := by
  rw [scan_tag hname, hps, scan_close fun _ => hrest]
  simp only [inFront_inFront, Grammar.inParens, List.cons_append, List.nil_append]

/-! ### Nodes -/

/-- What a node needs of the text behind its source. -/
structure Follows (node : Node) (cs : List Char) : Prop where
  raw : ∀ text, node = .raw text → (text.toList.getLast? = some '\\' → cs.head? ≠ some '#') ∧
    ∀ ts, scan .text cs = some ts → ¬ StartsRaw ts
  closes : node.closes = true → EndsTag cs
  opens : node.opens = true → cs.head? ≠ some ':'

/-- Some tokens spell a node, and its source is scanned to them wherever it may stand. -/
structure PrintsNode (node : Node) (us : List Token) : Prop where
  spells : Grammar.SpellsNode us node
  scans : ∀ rest, Follows node rest →
    scan .text (node.source.toList ++ rest) = inFront us (scan .text rest)

/-- Some tokens spell a body, and its source is scanned to them in front of what ends it. -/
structure PrintsBody (body : List Node) (us : List Token) : Prop where
  spells : Grammar.Spells us body
  scans : ScansBody (Node.sourceBody body).toList us

theorem Prints.spellsExpr {e : Expr} {ts : List Token} (h : Prints e ts) : Grammar.SpellsExpr ts e :=
  Grammar.spellsExpr_iff.2 (h.spells.lift (Nat.zero_le 6) (by decide))

theorem prints_raw {text : String} (h : text ≠ "") : PrintsNode (.raw text) [.raw text] := by
  refine ⟨.raw text, fun rest hrest => ?_⟩
  obtain ⟨hlast, hraw⟩ := hrest.raw text rfl
  have hne : text.toList ≠ [] := fun he => h (String.toList_eq_nil_iff.1 he)
  have hscan := scan_guarded hne hlast
  rw [Node.source, String.toList_ofList, hscan, String.ofList_toList]
  cases hr : scan .text rest with
  | none => rfl
  | some ts => exact congrArg some (consRaw_of_not (hraw ts hr))

theorem prints_expression {e : Expr} {es : List Token} (he : Prints e es) :
    PrintsNode (.expression e) (Grammar.inParens es) := by
  refine ⟨.expression he.spellsExpr, fun rest _ => ?_⟩
  have hsource : (Node.expression e).source.toList ++ rest = '#' :: '(' :: (e.source.toList ++ ')' :: rest) := by
    simp [Node.source]
  rw [hsource, scan_anonymous, he.scansParams, scan_close fun h => absurd h (by decide)]
  simp only [inFront_inFront, Grammar.inParens, List.cons_append, List.nil_append]

theorem prints_loop {name : String} {e : Expr} {es us : List Token} {body : List Node}
    (hname : IsIdentifier name) (he : Prints e es) (hb : PrintsBody body us) :
    PrintsNode (.loop name e body) (.tag "for" ::
      (Grammar.inParens (.param (.ident name) :: .param .in :: es) ++
        .bodyStart :: (us ++ [.tag "endfor"]))) := by
  refine ⟨.loop name he.spellsExpr hb.spells, fun rest hrest => ?_⟩
  have hsource : (Node.loop name e body).source.toList ++ rest =
      '#' :: ("for".toList ++ '(' :: (name.toList ++ " in ".toList ++ e.source.toList ++ ')' :: ':' ::
        ((Node.sourceBody body).toList ++ '#' :: ("endfor".toList ++ rest)))) := by
    simp [Node.source]
  rw [hsource]
  exact scan_closed (by decide) (@isClosing_end "for" (by decide)) (scansParams_loop hname he) hb.scans
    (hrest.closes rfl)

theorem prints_importing (key : String) :
    PrintsNode (.importing key) (.tag "import" :: Grammar.inParens [.param (.text key)]) := by
  refine ⟨.importing key, fun rest hrest => ?_⟩
  have hsource : (Node.importing key).source.toList ++ rest =
      '#' :: ("import".toList ++ '(' :: ((Text.literal key).toList ++ ')' :: rest)) := by
    simp [Node.source]
  rw [hsource]
  exact scan_bare (by decide) (scansParams_literal key) (hrest.opens rfl)

theorem scan_export {key : String} {us : List Token} {body : List Node} (hb : PrintsBody body us)
    {rest : List Char} (hrest : EndsTag rest) :
    scan .text ((Node.exporting key body).source.toList ++ rest) =
      inFront (.tag "export" :: (Grammar.inParens [.param (.text key)] ++
        .bodyStart :: (us ++ [.tag "endexport"]))) (scan .text rest) := by
  have hsource : (Node.exporting key body).source.toList ++ rest =
      '#' :: ("export".toList ++ '(' :: ((Text.literal key).toList ++ ')' :: ':' ::
        ((Node.sourceBody body).toList ++ '#' :: ("endexport".toList ++ rest)))) := by
    simp [Node.source]
  rw [hsource]
  exact scan_closed (by decide) (@isClosing_end "export" (by decide)) (scansParams_literal key) hb.scans hrest

theorem prints_exporting {key : String} {us : List Token} {body : List Node} (hb : PrintsBody body us) :
    PrintsNode (.exporting key body) (.tag "export" :: (Grammar.inParens [.param (.text key)] ++
      .bodyStart :: (us ++ [.tag "endexport"]))) :=
  ⟨.exporting (.body key hb.spells), fun _ hrest => scan_export hb (hrest.closes rfl)⟩

theorem prints_exports {exports : Table Export}
    (h : ∀ block ∈ exports, ∃ us, PrintsBody block.2.2 us) :
    ∃ ts, Each (Grammar.SpellsItem Grammar.Spells) ts ((exports.map Prod.snd).map some) ∧
      ScansBody (Node.sourceExports exports).toList ts := by
  induction exports with
  | nil => exact ⟨[], .nil, fun rest _ => (inFront_nil _).symm⟩
  | cons block exports ih =>
    obtain ⟨slot, key, body⟩ := block
    obtain ⟨⟨us, hus⟩, hmore⟩ := List.forall_mem_cons.1 h
    obtain ⟨ts, hts, hscans⟩ := ih hmore
    refine ⟨_, .cons (.block (.body key hus.spells)) hts, fun rest hrest => ?_⟩
    have hsource : (Node.sourceExports ((slot, key, body) :: exports)).toList ++ rest =
        (Node.exporting key body).source.toList ++ ((Node.sourceExports exports).toList ++ rest) := by
      simp [Node.source, Node.sourceExports]
    have hnext : EndsTag ((Node.sourceExports exports).toList ++ rest) := by
      cases exports with
      | nil => exact hrest.endsTag
      | cons next exports =>
        intro c hc
        rw [Node.sourceExports] at hc
        simp only [String.toList_append] at hc
        obtain rfl := Option.some.inj hc
        exact ⟨by decide, by decide⟩
    rw [hsource, scan_export hus hnext, hscans rest hrest, inFront_inFront]

theorem prints_extend {template : String} {exports : Table Export}
    (hsorted : Table.Sorted exports) (hkeys : ∀ block ∈ exports, block.2.1 = block.1)
    (h : ∀ block ∈ exports, ∃ us, PrintsBody block.2.2 us) :
    ∃ us, PrintsNode (.extend template exports) us := by
  obtain ⟨ts, hts, hscans⟩ := prints_exports h
  have hspells := Grammar.SpellsNode.extendWith template hts
  have hitems : ((exports.map Prod.snd).map some).filterMap id = exports.map Prod.snd := by simp
  rw [hitems, hsorted.ofKeyed_eq hkeys] at hspells
  refine ⟨_, hspells, fun rest hrest => ?_⟩
  have hsource : (Node.extend template exports).source.toList ++ rest =
      '#' :: ("extend".toList ++ '(' :: ((Text.literal template).toList ++ ')' :: ':' ::
        ((Node.sourceExports exports).toList ++ '#' :: ("endextend".toList ++ rest)))) := by
    simp [Node.source]
  rw [hsource]
  exact scan_closed (by decide) (@isClosing_end "extend" (by decide)) (scansParams_literal template) hscans
    (hrest.closes rfl)

theorem prints_custom {name : String} (hname : IsName name) (hfree : isReserved name = false)
    {items : List Printed} (h : ∀ item ∈ items, Prints item.2 item.1) :
    PrintsNode (.custom name (items.map Prod.snd) none)
      (.tag name :: Grammar.inParens ([.param .comma].intercalate (items.map Prod.fst))) := by
  refine ⟨.custom hfree fun item hm => (h item hm).spellsExpr, fun rest hrest => ?_⟩
  have hsource : (Node.custom name (items.map Prod.snd) none).source.toList ++ rest =
      '#' :: (name.toList ++ '(' :: ((Expr.sourceList (items.map Prod.snd)).toList ++ ')' :: rest)) := by
    simp [Node.source]
  rw [hsource]
  exact scan_bare hname (scansParams_arguments h) (hrest.opens rfl)

theorem prints_customWith {name : String} (hname : IsName name) (hfree : isReserved name = false)
    {items : List Printed} (h : ∀ item ∈ items, Prints item.2 item.1) {us : List Token} {body : List Node}
    (hb : PrintsBody body us) :
    PrintsNode (.custom name (items.map Prod.snd) (some body))
      (.tag name :: (Grammar.inParens ([.param .comma].intercalate (items.map Prod.fst)) ++
        .bodyStart :: (us ++ [.tag ("end" ++ name)]))) := by
  refine ⟨.customWith hfree (fun item hm => (h item hm).spellsExpr) hb.spells, fun rest hrest => ?_⟩
  have hsource : (Node.custom name (items.map Prod.snd) (some body)).source.toList ++ rest =
      '#' :: (name.toList ++ '(' :: ((Expr.sourceList (items.map Prod.snd)).toList ++ ')' :: ':' ::
        ((Node.sourceBody body).toList ++ '#' :: (("end" ++ name).toList ++ rest)))) := by
    simp [Node.source]
  rw [hsource]
  exact scan_closed hname (isClosing_end hname) (scansParams_arguments h) hb.scans (hrest.closes rfl)

theorem prints_branches {branches : List (Option Expr × List Node)}
    (hsome : ∀ branch ∈ branches.dropLast, branch.1.isSome = true)
    (hconditions : ∀ branch ∈ branches, ∀ condition ∈ branch.1, ∃ es, Prints condition es)
    (hbodies : ∀ branch ∈ branches, ∃ us, PrintsBody branch.2 us) :
    ∃ vs ws others last, branches = others ++ last ∧
      Each (Grammar.SpellsBranch Grammar.Spells "elseif") vs others ∧
      Grammar.SpellsLast Grammar.Spells ws last ∧
      ∀ rest, Ends rest → Ends ((Node.sourceBranches "#elseif(" branches).toList ++ rest) ∧
        scan .text ((Node.sourceBranches "#elseif(" branches).toList ++ rest) =
          inFront (vs ++ ws) (scan .text rest) := by
  induction branches with
  | nil => exact ⟨[], [], [], [], rfl, .nil, .absent, fun rest hrest => ⟨hrest, (inFront_nil _).symm⟩⟩
  | cons branch branches ih =>
    obtain ⟨condition, body⟩ := branch
    obtain ⟨hcondition, hothers⟩ := List.forall_mem_cons.1 hconditions
    obtain ⟨⟨us, hus⟩, hmore⟩ := List.forall_mem_cons.1 hbodies
    cases condition with
    | none =>
      -- a branch without a condition is the last
      obtain rfl : branches = [] := by
        cases branches with
        | nil => rfl
        | cons next more => exact absurd (hsome _ List.mem_cons_self) Bool.false_ne_true
      refine ⟨[], .tag "else" :: .bodyStart :: us, [], [(none, body)], rfl, .nil, .colon hus.spells,
        fun rest hrest => ?_⟩
      have hsource : (Node.sourceBranches "#elseif(" [(none, body)]).toList ++ rest =
          "#else:".toList ++ ((Node.sourceBody body).toList ++ rest) := by simp [Node.sourceBranches]
      have hscan : scan .text ((Node.sourceBranches "#elseif(" [(none, body)]).toList ++ rest) =
          inFront (.tag "else" :: .bodyStart :: us) (scan .text rest) := by
        rw [hsource, scan_else, hus.scans rest hrest, inFront_inFront]
        rfl
      exact ⟨ends_of_scan (by rw [hsource]; rfl) hscan id, hscan⟩
    | some e =>
      obtain ⟨es, hes⟩ := hcondition e rfl
      have hsome' : ∀ branch ∈ branches.dropLast, branch.1.isSome = true := fun branch hm => by
        refine hsome branch ?_
        cases branches with
        | nil => exact absurd hm List.not_mem_nil
        | cons next more => exact List.mem_cons_of_mem _ hm
      obtain ⟨vs, ws, others, last, rfl, hothers, hlast, hscans⟩ := ih hsome' hothers hmore
      refine ⟨_, ws, (some e, body) :: others, last, rfl,
        .cons (.intro hes.spellsExpr hus.spells) hothers, hlast, fun rest hrest => ?_⟩
      obtain ⟨hends, hscan⟩ := hscans rest hrest
      have hsource : (Node.sourceBranches "#elseif(" ((some e, body) :: (others ++ last))).toList ++ rest =
          '#' :: ("elseif".toList ++ '(' :: (e.source.toList ++ ')' :: ':' :: ((Node.sourceBody body).toList ++
            ((Node.sourceBranches "#elseif(" (others ++ last)).toList ++ rest)))) := by
        simp [Node.sourceBranches]
      have hname : IsName "elseif" := by decide
      have hbranch := scan_opened hname hes.scansParams hus.scans hends
      rw [← hsource, hscan, inFront_inFront] at hbranch
      refine ⟨ends_of_scan (by rw [hsource]; rfl) hbranch id, hbranch.trans ?_⟩
      simp only [List.cons_append, List.append_assoc]

theorem prints_conditional {e : Expr} {es us : List Token} {body : List Node}
    {branches : List (Option Expr × List Node)} (he : Prints e es) (hb : PrintsBody body us)
    (hsome : ∀ branch ∈ branches.dropLast, branch.1.isSome = true)
    (hconditions : ∀ branch ∈ branches, ∀ condition ∈ branch.1, ∃ es, Prints condition es)
    (hbodies : ∀ branch ∈ branches, ∃ us, PrintsBody branch.2 us) :
    ∃ us, PrintsNode (.conditional ((some e, body) :: branches)) us := by
  obtain ⟨vs, ws, others, last, rfl, hothers, hlast, hscans⟩ := prints_branches hsome hconditions hbodies
  have hfirst : Grammar.SpellsBranch Grammar.Spells "if" _ (some e, body) := .intro he.spellsExpr hb.spells
  refine ⟨_, .conditional hfirst hothers hlast, fun rest hrest => ?_⟩
  have hclose : scan .text ('#' :: ("endif".toList ++ rest)) = inFront [.tag "endif"] (scan .text rest) :=
    scan_closing (@isClosing_end "if" (by decide)) (hrest.closes rfl)
  obtain ⟨hends, hscan⟩ := hscans _ (ends_of_scan rfl hclose id)
  have hsource : (Node.conditional ((some e, body) :: (others ++ last))).source.toList ++ rest =
      '#' :: ("if".toList ++ '(' :: (e.source.toList ++ ')' :: ':' :: ((Node.sourceBody body).toList ++
        ((Node.sourceBranches "#elseif(" (others ++ last)).toList ++
          '#' :: ("endif".toList ++ rest))))) := by
    simp [Node.source, Node.sourceBranches]
  have hname : IsName "if" := by decide
  have hbranch := scan_opened hname he.scansParams hb.scans hends
  rw [hsource]
  refine hbranch.trans ?_
  rw [hscan, hclose]
  simp only [inFront_inFront, List.cons_append, List.append_assoc]

theorem exists_printsNode {node : Node} (h : node.Fits)
    (hbodies : ∀ body ∈ node.bodies, ∃ us, PrintsBody body us) : ∃ us, PrintsNode node us := by
  cases node with
  | raw text => exact ⟨_, prints_raw h⟩
  | expression e =>
    obtain ⟨es, hes⟩ := exists_prints h
    exact ⟨_, prints_expression hes⟩
  | loop name e body =>
    obtain ⟨es, hes⟩ := exists_prints h.2
    obtain ⟨us, hus⟩ := hbodies body List.mem_cons_self
    exact ⟨_, prints_loop h.1 hes hus⟩
  | conditional branches =>
    obtain ⟨⟨first, hfirst, hisSome⟩, hsome, hreadable⟩ := h
    obtain ⟨more, rfl⟩ := List.head?_eq_some_iff.1 hfirst
    obtain ⟨_ | e, body⟩ := first
    · cases hisSome
    obtain ⟨he, hreadable⟩ := List.forall_mem_cons.1 hreadable
    obtain ⟨es, hes⟩ := exists_prints (he e rfl)
    obtain ⟨⟨us, hus⟩, hbodies⟩ := List.forall_mem_cons.1 hbodies
    refine prints_conditional hes hus (fun branch hm => hsome branch ?_)
      (fun branch hm condition hc => exists_prints (hreadable branch hm condition hc))
      fun branch hm => hbodies _ (List.mem_map_of_mem hm)
    cases more with
    | nil => exact absurd hm List.not_mem_nil
    | cons next more => exact List.mem_cons_of_mem _ hm
  | extend template exports =>
    exact prints_extend h.1 h.2 fun block hm => hbodies _ (List.mem_map_of_mem hm)
  | importing key => exact ⟨_, prints_importing key⟩
  | exporting key body =>
    obtain ⟨us, hus⟩ := hbodies body List.mem_cons_self
    exact ⟨_, prints_exporting hus⟩
  | custom name params body =>
    obtain ⟨hname, hfree, hreadable⟩ := h
    obtain ⟨items, rfl, hitems⟩ := exists_printed fun e he => exists_prints (hreadable e he)
    cases body with
    | none => exact ⟨_, prints_custom hname hfree hitems⟩
    | some body =>
      obtain ⟨us, hus⟩ := hbodies body List.mem_cons_self
      exact ⟨_, prints_customWith hname hfree hitems hus⟩

end Lexer

end Templating
