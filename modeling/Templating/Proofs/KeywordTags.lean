import Templating.Proofs.Equality
import Templating.Proofs.Running
import Templating.Proofs.Runs
import Templating.Proofs.Undoing
import Templating.Renderer.Basic

/-!
# Parentheses behind a keyword tag

No node has a keyword tag with parameters, but a tag without a name opens its parentheses by the same token
as a tag with one. So parentheses right behind a keyword tag are read as a node of their own: the text means
what it means with an indicator put in front of them.
-/

namespace Templating

namespace Grammar

open Reader

/-! ### Spelled nodes in parts -/

/-- What a spelled template is made of, from one place where a node might begin to the next: raw text, an
expression, a tag with its parameters and perhaps the colon behind them, or a tag without parameters. -/
inductive SpellsPart : List Token → Option Expr → Prop where
  | raw (text : String) : SpellsPart [.raw text] none
  | value {es : List Token} {e : Expr} (he : SpellsExpr es e) : SpellsPart (inParens es) (some e)
  | named {name : String} (hname : isKeywordTag name = false) {params : List Token} (tail : List Token)
    (hparams : ∀ t ∈ params, ∃ param, t = .param param) (htail : tail ⊆ [.bodyStart]) :
    SpellsPart (.tag name :: (inParens params ++ tail)) none
  | bare (name : String) : SpellsPart [.tag name] none
  | otherwise : SpellsPart [.tag "else", .bodyStart] none

def InParts (ts : List Token) : Prop := ∃ parts, Each SpellsPart ts parts

theorem SpellsPart.alone {ts : List Token} {part : Option Expr} (h : SpellsPart ts part) : InParts ts :=
  ⟨[part], by simpa using Each.cons h .nil⟩

theorem InParts.append {ts us : List Token} (h : InParts ts) (h' : InParts us) : InParts (ts ++ us) := by
  obtain ⟨parts, h⟩ := h
  obtain ⟨others, h'⟩ := h'
  refine ⟨parts ++ others, ?_⟩
  induction h with
  | nil => exact h'
  | cons head _ ih =>
    rw [List.append_assoc]
    exact .cons head ih

theorem InParts.tag {name : String} (hname : isKeywordTag name = false) {params : List Token}
    (hparams : ∀ t ∈ params, ∃ param, t = .param param) : InParts (.tag name :: inParens params) := by
  have hpart := (SpellsPart.named hname [] hparams (List.nil_subset _)).alone
  rwa [List.append_nil] at hpart

/-- A tag with parameters and a body that what is behind it closes. -/
theorem InParts.opening {name : String} (hname : isKeywordTag name = false) {params : List Token}
    (hparams : ∀ t ∈ params, ∃ param, t = .param param) {ts : List Token} (hts : InParts ts) :
    InParts (.tag name :: (inParens params ++ .bodyStart :: ts)) := by
  have hparts := (SpellsPart.named hname [.bodyStart] hparams (List.Subset.refl _)).alone.append hts
  rwa [List.cons_append, List.append_assoc] at hparts

theorem InParts.closed {ts : List Token} (hts : InParts ts) (name : String) : InParts (ts ++ [.tag name]) :=
  hts.append (SpellsPart.bare name).alone

theorem SpellsExpr.isParam {es : List Token} {e : Expr} (h : SpellsExpr es e) :
    ∀ t ∈ es, ∃ param, t = .param param := (spellsExpr_iff.1 h).isParam

theorem isParam_text (s : String) : ∀ t ∈ [Token.param (.text s)], ∃ param, t = .param param := by
  simp

mutual

theorem inParts_of_spells : ∀ {ts : List Token} {nodes : List Node}, Each SpellsNode ts nodes → InParts ts
  | _, _, .nil => ⟨[], .nil⟩
  | _, _, .cons head tail => head.inParts.append (inParts_of_spells tail)

theorem SpellsNode.inParts : ∀ {ts : List Token} {node : Node}, SpellsNode ts node → InParts ts
  | _, _, .raw text => (SpellsPart.raw text).alone
  | _, _, .expression he => (SpellsPart.value he).alone
  | _, _, .loop name he hb => by
    refine .opening (by decide) ?_ ((inParts_of_spells hb).closed "endfor")
    exact List.forall_mem_cons.2 ⟨⟨_, rfl⟩, List.forall_mem_cons.2 ⟨⟨_, rfl⟩, he.isParam⟩⟩
  | _, _, .conditional hf ho hl =>
    (inParts_of_if hf).append ((inParts_of_branches ho).append (hl.inParts.closed "endif"))
  | _, _, .extend template => .tag (by decide) (isParam_text template)
  | _, _, .extendWith template h =>
    .opening (by decide) (isParam_text template) ((inParts_of_items h).closed "endextend")
  | _, _, .exporting h => h.inParts
  | _, _, .importing key => .tag (by decide) (isParam_text key)
  | _, _, .custom hname hp =>
    .tag (Bool.or_eq_false_iff.1 hname).2 (isParam_intercalate fun param hm => (hp param hm).isParam)
  | _, _, @SpellsNode.customWith name hname _ hp _ _ hb =>
    .opening (Bool.or_eq_false_iff.1 hname).2 (isParam_intercalate fun param hm => (hp param hm).isParam)
      ((inParts_of_spells hb).closed ("end" ++ name))

theorem inParts_of_if : ∀ {ts : List Token} {branch : Option Expr × List Node},
    SpellsBranch (Each SpellsNode) "if" ts branch → InParts ts
  | _, _, .intro he hb => .opening (by decide) he.isParam (inParts_of_spells hb)

theorem inParts_of_elseif : ∀ {ts : List Token} {branch : Option Expr × List Node},
    SpellsBranch (Each SpellsNode) "elseif" ts branch → InParts ts
  | _, _, .intro he hb => .opening (by decide) he.isParam (inParts_of_spells hb)

theorem inParts_of_branches : ∀ {ts : List Token} {branches : List (Option Expr × List Node)},
    Each (SpellsBranch (Each SpellsNode) "elseif") ts branches → InParts ts
  | _, _, .nil => ⟨[], .nil⟩
  | _, _, .cons head tail => (inParts_of_elseif head).append (inParts_of_branches tail)

theorem SpellsLast.inParts : ∀ {ts : List Token} {last : List (Option Expr × List Node)},
    SpellsLast (Each SpellsNode) ts last → InParts ts
  | _, _, .absent => ⟨[], .nil⟩
  | _, _, .colon hb => SpellsPart.otherwise.alone.append (inParts_of_spells hb)
  | _, _, .bare hb => (SpellsPart.bare "else").alone.append (inParts_of_spells hb)

theorem SpellsBlock.inParts : ∀ {ts : List Token} {block : Export},
    SpellsBlock (Each SpellsNode) ts block → InParts ts
  | _, _, .value key he =>
    .tag (by decide)
      (List.forall_mem_cons.2 ⟨⟨_, rfl⟩, List.forall_mem_cons.2 ⟨⟨_, rfl⟩, he.isParam⟩⟩)
  | _, _, .body key hb => .opening (by decide) (isParam_text key) ((inParts_of_spells hb).closed "endexport")
  | _, _, .empty key => .tag (by decide) (isParam_text key)

theorem SpellsItem.inParts : ∀ {ts : List Token} {item : Option Export},
    SpellsItem (Each SpellsNode) ts item → InParts ts
  | _, _, .blank _ => (SpellsPart.raw _).alone
  | _, _, .block h => h.inParts

theorem inParts_of_items : ∀ {ts : List Token} {items : List (Option Export)},
    Each (SpellsItem (Each SpellsNode)) ts items → InParts ts
  | _, _, .nil => ⟨[], .nil⟩
  | _, _, .cons head tail => head.inParts.append (inParts_of_items tail)

end

/-! ### Behind a keyword tag -/

theorem tag_notMem_inParens {params : List Token} (hparams : ∀ t ∈ params, ∃ param, t = .param param)
    (name : String) : .tag name ∉ inParens params := by
  simp only [inParens, List.mem_cons, List.mem_append, List.not_mem_nil, or_false, reduceCtorEq, false_or]
  intro hmem
  obtain ⟨param, hparam⟩ := hparams _ hmem
  cases hparam

/-- A keyword tag has nothing but a colon behind it in its part. -/
theorem SpellsPart.behind_keyword {ts xs ys : List Token} {part : Option Expr} {name : String}
    (h : SpellsPart ts part) (hname : isKeywordTag name = true) (hts : ts = xs ++ .tag name :: ys) :
    ys = [] ∨ ys = [.bodyStart] := by
  have hmem : .tag name ∈ ts := hts ▸ List.mem_append_right xs List.mem_cons_self
  cases h with
  | raw text => simp at hmem
  | value he => exact absurd hmem (tag_notMem_inParens he.isParam name)
  | @named other hother params tail hparams htail =>
    rcases List.mem_cons.1 hmem with he | hmem
    · rw [Token.tag.inj he, hother] at hname
      cases hname
    · rcases List.mem_append.1 hmem with hmem | hmem
      · exact absurd hmem (tag_notMem_inParens hparams name)
      · exact absurd (htail hmem) (by simp)
  | bare other =>
    rcases List.cons_eq_append_iff.1 hts with ⟨rfl, hcons⟩ | ⟨more, rfl, hmore⟩
    · exact .inl (List.cons.inj hcons).2
    · exact absurd hmore (by simp)
  | otherwise =>
    rcases List.cons_eq_append_iff.1 hts with ⟨rfl, hcons⟩ | ⟨more, rfl, hmore⟩
    · exact .inr (List.cons.inj hcons).2
    · rcases List.cons_eq_append_iff.1 hmore with ⟨rfl, hcons⟩ | ⟨_, _, hnil⟩
      · cases hcons
      · exact absurd hnil (by simp)

theorem exists_value_of_paramsOpen {parts : List (Option Expr)} {ys : List Token}
    (h : Each SpellsPart (.paramsOpen :: ys) parts) :
    ∃ es e zs, ys = es ++ .paramsClose :: zs ∧ SpellsExpr es e ∧ zs.head? ≠ some .bodyStart := by
  generalize hts : Token.paramsOpen :: ys = ts at h
  cases h with
  | nil => cases hts
  | @cons us vs part parts head tail =>
    cases head with
    | @value es e he =>
      obtain ⟨-, rfl⟩ := List.cons.inj hts
      refine ⟨es, e, vs, by simp, he, ?_⟩
      cases tail with
      | nil => exact nofun
      | cons head _ => cases head <;> simp [inParens]
    | _ => cases hts

/-- Parentheses behind a keyword tag hold an expression, and no body is opened behind them. -/
theorem InParts.exists_value {ts xs ys : List Token} {name : String} (h : InParts ts)
    (hname : isKeywordTag name = true) (hts : ts = xs ++ .tag name :: .paramsOpen :: ys) :
    ∃ es e zs, ys = es ++ .paramsClose :: zs ∧ SpellsExpr es e ∧ zs.head? ≠ some .bodyStart := by
  obtain ⟨parts, h⟩ := h
  induction h generalizing xs with
  | nil => exact absurd hts (by simp)
  | @cons us vs part parts head tail ih =>
    rcases List.append_eq_append_iff.1 hts with ⟨more, -, hvs⟩ | ⟨more, hus, hmore⟩
    · exact ih hvs
    · cases more with
      | nil => exact ih (show vs = [] ++ _ from hmore.symm)
      | cons t more =>
        obtain ⟨rfl, hrest⟩ := List.cons.inj hmore
        rcases head.behind_keyword hname hus with rfl | rfl
        · have hvs : .paramsOpen :: ys = vs := hrest
          exact exists_value_of_paramsOpen (hvs ▸ tail)
        · cases hrest

end Grammar

/-! ### An indicator in front of the parentheses -/

open Lexer Grammar Text

theorem exists_foldr_put (ps : List Piece) {ts : List Token} (hts : ¬ StartsRaw ts) :
    ∃ front, ps.foldr (fun p => put p.token) ts = front ++ ts := by
  have hraw : ∀ (a : String) (front : List Token), ∃ more, consRaw a (front ++ ts) = more ++ ts := by
    intro a front
    cases front with
    | nil => exact ⟨[.raw a], consRaw_of_not hts⟩
    | cons t front =>
      cases t with
      | raw b => exact ⟨.raw (a ++ b) :: front, rfl⟩
      | _ => exact ⟨.raw a :: _ :: front, rfl⟩
  induction ps with
  | nil => exact ⟨[], rfl⟩
  | cons p ps ih =>
    obtain ⟨front, hfront⟩ := ih
    rw [List.foldr_cons, hfront]
    cases p.token with
    | none => exact ⟨front, rfl⟩
    | some t =>
      cases t with
      | raw a => exact hraw a front
      | _ => exact ⟨_ :: front, rfl⟩

/-- Where a tag stands and what is scanned there, if parentheses are right behind it. -/
theorem exists_runs_of_lex {source : String} {before after : List Lexeme} {l : Lexeme} {name : String}
    {front back : List Char} (hlex : lex source = .ok (before ++ l :: after)) (hl : l.token = .tag name)
    (hsource : source.toList = front ++ '(' :: back) (hplace : width front = l.span.stop) :
    IsName name ∧ (∃ opening rest, after = opening :: rest ∧ opening.token = .paramsOpen) ∧
      ∃ ps, front = ps.flatMap Piece.chars ++ '#' :: name.toList ∧
        Runs .text source.toList ps .text ('#' :: (name.toList ++ '(' :: back)) := by
  unfold lex at hlex
  dsimp only at hlex
  split at hlex
  swap
  · cases hlex
  obtain ⟨xs, chars, ys, hjoin, hspan, -, hafter⟩ := exists_of_lexemes_eq (Except.ok.inj hlex)
  rw [hl] at hjoin
  obtain ⟨us, vs, hpieces, hus, hvs⟩ := joinRaw_eq_append hjoin nofun
  obtain ⟨rest, more, hruns, hstep, hmore⟩ := exists_runs_of_tag hpieces
  obtain ⟨hname, rfl, rest, rfl, hrest⟩ := isName_of_indicatorStep hstep
  have hchars : us.flatMap Piece.chars ++ '#' :: name.toList ++ rest = front ++ '(' :: back := by
    rw [← hsource, ← hruns.chars, List.append_assoc]
    rfl
  have hwidth : width (us.flatMap Piece.chars ++ '#' :: name.toList) = width front := by
    rw [hplace, hspan, hus, width_append, Nat.zero_add]
  obtain ⟨rfl, rfl⟩ := append_inj_of_width hchars hwidth
  rw [indicatorStep_eq_namedStep hname hrest] at hstep
  obtain rfl : [⟨some .paramsOpen, ['(']⟩] = more := (List.cons.inj hstep).2
  obtain ⟨vs, rfl⟩ := hmore
  obtain rfl : ⟨some .paramsOpen, ['(']⟩ :: joinRaw vs = ys := hvs
  exact ⟨hname, ⟨_, _, hafter.symm, rfl⟩, us, rfl, hruns⟩

theorem scan_keyword_indicator {name : String} (hname : IsName name) (hkeyword : isKeywordTag name = true)
    (cs : List Char) :
    scan .text ('#' :: (name.toList ++ '#' :: cs)) = inFront [.tag name] (scan .text ('#' :: cs)) := by
  have hnamed : namedStep name ('#' :: cs) =
      ⟨[⟨some (.tag name), '#' :: name.toList⟩], name.toList.length, .text⟩ := if_pos hkeyword
  have hstep : step .text '#' (name.toList ++ '#' :: cs) =
      .ok ⟨[⟨some (.tag name), '#' :: name.toList⟩], name.toList.length, .text⟩ := by
    rw [← hnamed]
    exact congrArg Except.ok (indicatorStep_eq_namedStep hname (stopsAt_cons (by decide)))
  have hdrop : (name.toList ++ '#' :: cs).drop name.toList.length = '#' :: cs := List.drop_left
  rw [scan_cons hstep]
  show (scan .text ((name.toList ++ '#' :: cs).drop name.toList.length)).map _ = _
  rw [hdrop]
  rfl

/-- Parentheses right behind a keyword tag, in a text that is read to some nodes, hold an expression, and the
text with an indicator put in front of them is read to the same nodes: they are a tag without a name. -/
theorem parse_keyword_parentheses {source : String} {nodes : List Node} {before after : List Lexeme}
    {l : Lexeme} {name : String} {front back : List Char} (hparse : parse source = .ok nodes)
    (hlex : lex source = .ok (before ++ l :: after)) (hl : l.token = .tag name)
    (hname : isKeywordTag name = true) (hsource : source.toList = front ++ '(' :: back)
    (hplace : width front = l.span.stop) :
    (∃ opening params closing rest e, after = opening :: (params ++ closing :: rest) ∧
      opening.token = .paramsOpen ∧ closing.token = .paramsClose ∧ SpellsExpr (tokens params) e) ∧
    parse (String.ofList (front ++ '#' :: '(' :: back)) = .ok nodes := by
  obtain ⟨ts, hscan, hspells⟩ := parse_eq_ok_iff.1 hparse
  have hparts := inParts_of_spells hspells
  obtain ⟨hisName, ⟨opening, rest, rfl, hopening⟩, ps, rfl, hruns⟩ :=
    exists_runs_of_lex hlex hl hsource hplace
  constructor
  · have htokens : ts = tokens before ++ .tag name :: .paramsOpen :: tokens rest := by
      have := hscan.symm.trans (scan_of_lex hlex)
      rw [Option.some.inj this, tokens_append, tokens_cons, tokens_cons, hl, hopening]
    obtain ⟨es, e, zs, hrest, he, -⟩ := hparts.exists_value hname htokens
    obtain ⟨params, more, rfl, rfl, hmore⟩ := tokens_eq_append hrest
    obtain ⟨closing, last, rfl, hclosing, -⟩ := tokens_eq_cons hmore
    exact ⟨opening, params, closing, last, e, rfl, hopening, hclosing, he⟩
  · rw [hruns.scan, scan_tag hisName] at hscan
    obtain ⟨us, hus, hput⟩ := Option.map_eq_some_iff.1 hscan
    obtain ⟨vs, hvs, rfl⟩ := Option.map_eq_some_iff.1 hus
    obtain ⟨front, hfront⟩ := @exists_foldr_put ps (.tag name :: .paramsOpen :: vs) id
    obtain ⟨es, e, zs, rfl, he, hbody⟩ := hparts.exists_value hname (hput.symm.trans hfront)
    refine parse_eq_ok_iff.2 ⟨ts, ?_, hspells⟩
    rw [String.toList_ofList, List.append_assoc, List.cons_append,
      (hruns.behind (name.toList ++ '#' :: '(' :: back)).scan, scan_keyword_indicator hisName hname,
      scan_anonymous, scan_unnamed hvs he.isParam hbody]
    exact congrArg some hput

/-- A conditional with parentheses behind the tag of its last branch. -/
def askedOtherwise : String := "#if(a):A#else(b)C#endif"

def askedOtherwiseNodes : List Node :=
  [.conditional [(some (.path "a" []), [.raw "A"]), (none, [.expression (.path "b" []), .raw "C"])]]

def askedOtherwiseLexemes : List Lexeme :=
  [⟨.tag "if", ⟨0, 3⟩⟩, ⟨.paramsOpen, ⟨3, 4⟩⟩, ⟨.param (.ident "a"), ⟨4, 5⟩⟩, ⟨.paramsClose, ⟨5, 6⟩⟩,
    ⟨.bodyStart, ⟨6, 7⟩⟩, ⟨.raw "A", ⟨7, 8⟩⟩, ⟨.tag "else", ⟨8, 13⟩⟩, ⟨.paramsOpen, ⟨13, 14⟩⟩,
    ⟨.param (.ident "b"), ⟨14, 15⟩⟩, ⟨.paramsClose, ⟨15, 16⟩⟩, ⟨.raw "C", ⟨16, 17⟩⟩,
    ⟨.tag "endif", ⟨17, 23⟩⟩]

theorem parse_askedOtherwise : parse askedOtherwise = .ok askedOtherwiseNodes := by decide +kernel

theorem lex_askedOtherwise : lex askedOtherwise = .ok askedOtherwiseLexemes := by decide +kernel

theorem parse_keyword_parentheses_else :
    (parse askedOtherwise = .ok askedOtherwiseNodes ∧ lex askedOtherwise = .ok askedOtherwiseLexemes ∧
      isKeywordTag "else" = true ∧
      askedOtherwise.toList = "#if(a):A#else".toList ++ '(' :: "b)C#endif".toList ∧
      width "#if(a):A#else".toList = 13) ∧
    parse "#if(a):A#else#(b)C#endif" = .ok askedOtherwiseNodes := by
  have hsplit : askedOtherwiseLexemes =
      askedOtherwiseLexemes.take 6 ++ ⟨.tag "else", ⟨8, 13⟩⟩ :: askedOtherwiseLexemes.drop 7 := rfl
  have hsource : askedOtherwise.toList = "#if(a):A#else".toList ++ '(' :: "b)C#endif".toList := by decide
  have hparens := parse_keyword_parentheses parse_askedOtherwise
    (lex_askedOtherwise.trans (congrArg Except.ok hsplit)) rfl (by decide) hsource (by decide)
  exact ⟨⟨parse_askedOtherwise, lex_askedOtherwise, by decide, hsource, by decide⟩, hparens.2⟩

/-- So a keyword tag may be written with parentheses, and what is in them is evaluated. -/
theorem keyword_parentheses_evaluated :
    (¬ ∀ (source : String) (nodes : List Node) (ls : List Lexeme), parse source = .ok nodes →
      lex source = .ok ls → ∀ l ∈ ls, ∀ name, l.token = .tag name → isKeywordTag name = true →
        ∀ front back, source.toList = front ++ '(' :: back → width front ≠ l.span.stop) ∧
    renderText "#if(true):A#endif(1 + 1)" .null = .ok "A2" := by
  refine ⟨fun h => ?_, Resolve.ok_of_toOption (by decide +kernel)⟩
  exact h askedOtherwise _ _ parse_askedOtherwise lex_askedOtherwise ⟨.tag "else", ⟨8, 13⟩⟩ (by decide)
    "else" rfl (by decide) "#if(a):A#else".toList "b)C#endif".toList (by decide) (by decide)

end Templating
