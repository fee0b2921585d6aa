import Templating.Grammar.Template
import Templating.Proofs.Operations

/-!
# Spelled templates

Which tokens spell a node, given what the reader of expressions takes for an expression. The reader of
templates takes exactly what is spelled: an optional body is never given up where it could have been
closed, and no choice is made that a later token would refuse.
-/

namespace Templating

namespace Grammar

open Reader

/-- The tokens that the reader of expressions takes whole. -/
def SpellsExpr (ts : List Token) (e : Expr) : Prop :=
  ∃ ls, tokens ls = ts ∧ run (expression (ls.length + 1)) ls = some (e, [])

theorem spellsExpr_iff {ts : List Token} {e : Expr} : SpellsExpr ts e ↔ SpellsAt 7 ts e := by
  constructor
  · rintro ⟨ls, rfl, h⟩
    exact (run_expression_eq_some_iff (Nat.lt_succ_self _)).1 h
  · intro h
    obtain ⟨ls, rfl⟩ := exists_tokens_eq ts
    exact ⟨ls, rfl, (run_expression_eq_some_iff (Nat.lt_succ_self _)).2 h⟩

/-! ### The grammar -/

/-- Tokens in the parentheses of a tag. -/
def inParens (ts : List Token) : List Token := .paramsOpen :: (ts ++ [.paramsClose])

section Bodies

variable (body : List Token → List Node → Prop)

/-- A branch with a condition, opened by the tag `name`. -/
inductive SpellsBranch (name : String) : List Token → Option Expr × List Node → Prop where
  | intro {es ts : List Token} {e : Expr} {nodes : List Node} (he : SpellsExpr es e)
    (hb : body ts nodes) :
    SpellsBranch name (.tag name :: (inParens es ++ .bodyStart :: ts)) (some e, nodes)

/-- The branch without a condition, if there is one; its colon may be missing. -/
inductive SpellsLast : List Token → List (Option Expr × List Node) → Prop where
  | absent : SpellsLast [] []
  | colon {ts : List Token} {nodes : List Node} (hb : body ts nodes) :
    SpellsLast (.tag "else" :: .bodyStart :: ts) [(none, nodes)]
  | bare {ts : List Token} {nodes : List Node} (hb : body ts nodes) :
    SpellsLast (.tag "else" :: ts) [(none, nodes)]

/-- A block under its key: a value, a body or nothing. -/
inductive SpellsBlock : List Token → Export → Prop where
  | value (key : String) {es : List Token} {e : Expr} (he : SpellsExpr es e) :
    SpellsBlock (.tag "export" :: inParens (.param (.text key) :: .param .comma :: es))
      (key, [.expression e])
  | body (key : String) {ts : List Token} {nodes : List Node} (hb : body ts nodes) :
    SpellsBlock (.tag "export" :: (inParens [.param (.text key)] ++
      .bodyStart :: (ts ++ [.tag "endexport"]))) (key, nodes)
  | empty (key : String) : SpellsBlock (.tag "export" :: inParens [.param (.text key)]) (key, [])

/-- What may stand in an extend: a block, or blanks that count for nothing. -/
inductive SpellsItem : List Token → Option Export → Prop where
  | blank {text : String} (h : Text.allBlank text = true) : SpellsItem [.raw text] none
  | block {ts : List Token} {block : Export} (h : SpellsBlock body ts block) :
    SpellsItem ts (some block)

end Bodies

/-- The tokens that spell a node. -/
inductive SpellsNode : List Token → Node → Prop where
  | raw (text : String) : SpellsNode [.raw text] (.raw text)
  | expression {es : List Token} {e : Expr} (he : SpellsExpr es e) : SpellsNode (inParens es) (.expression e)
  | loop (name : String) {es ts : List Token} {e : Expr} {nodes : List Node} (he : SpellsExpr es e)
    (hb : Each SpellsNode ts nodes) :
    SpellsNode (.tag "for" :: (inParens (.param (.ident name) :: .param .in :: es) ++
      .bodyStart :: (ts ++ [.tag "endfor"]))) (.loop name e nodes)
  | conditional {ts us vs : List Token} {first : Option Expr × List Node}
    {others last : List (Option Expr × List Node)} (hf : SpellsBranch (Each SpellsNode) "if" ts first)
    (ho : Each (SpellsBranch (Each SpellsNode) "elseif") us others)
    (hl : SpellsLast (Each SpellsNode) vs last) :
    SpellsNode (ts ++ (us ++ (vs ++ [.tag "endif"]))) (.conditional (first :: others ++ last))
  | extend (template : String) :
    SpellsNode (.tag "extend" :: inParens [.param (.text template)]) (.extend template [])
  /-- Of two blocks with one key the later is kept. -/
  | extendWith (template : String) {ts : List Token} {items : List (Option Export)}
    (h : Each (SpellsItem (Each SpellsNode)) ts items) :
    SpellsNode (.tag "extend" :: (inParens [.param (.text template)] ++
      .bodyStart :: (ts ++ [.tag "endextend"])))
      (.extend template (Table.ofKeyed (items.filterMap id)))
  | exporting {ts : List Token} {key : String} {nodes : List Node}
    (h : SpellsBlock (Each SpellsNode) ts (key, nodes)) : SpellsNode ts (.exporting key nodes)
  | importing (key : String) :
    SpellsNode (.tag "import" :: inParens [.param (.text key)]) (.importing key)
  | custom {name : String} (hname : isReserved name = false) {params : List (List Token × Expr)}
    (hp : ∀ param ∈ params, SpellsExpr param.1 param.2) :
    SpellsNode (.tag name :: inParens ([.param .comma].intercalate (params.map Prod.fst)))
      (.custom name (params.map Prod.snd) none)
  | customWith {name : String} (hname : isReserved name = false) {params : List (List Token × Expr)}
    (hp : ∀ param ∈ params, SpellsExpr param.1 param.2) {ts : List Token} {nodes : List Node}
    (hb : Each SpellsNode ts nodes) :
    SpellsNode (.tag name :: (inParens ([.param .comma].intercalate (params.map Prod.fst)) ++
      .bodyStart :: (ts ++ [.tag ("end" ++ name)]))) (.custom name (params.map Prod.snd) (some nodes))

/-- The tokens that spell some nodes, one behind the other. -/
abbrev Spells : List Token → List Node → Prop := Each SpellsNode

/-! ### All that is read is spelled -/

section Sound

variable {bound : Nat} {expr : Reader Expr} {body : Reader (List Node)}

theorem sound_inParams {α : Type} {p : Reader α} {R : List Token → α → Prop} (hp : Sound p R) :
    Sound (inParams p) fun ts a => ∃ us, ts = inParens us ∧ R us a := by
  refine ((Sound.token _).bind fun _ => hp.bind fun a => (Sound.token _).bind fun _ =>
    Sound.pure a).mono fun ts a h => ?_
  obtain ⟨_, _, -, rfl, rfl, us, _, a, rfl, ha, _, _, -, rfl, rfl, rfl, rfl⟩ := h
  exact ⟨us, rfl, ha⟩

theorem sound_stringLiteral : Sound stringLiteral fun ts s => ts = [.param (.text s)] := by
  unfold stringLiteral sort
  refine (Sound.select _ _).mono fun ts s h => ?_
  obtain ⟨t, rfl, ht⟩ := h
  split at ht
  · obtain rfl := Option.some.inj ht
    rfl
  · cases ht

theorem sound_rawText : Sound rawText fun ts text => ts = [.raw text] := by
  unfold rawText
  refine (Sound.select _ _).mono fun ts s h => ?_
  obtain ⟨t, rfl, ht⟩ := h
  split at ht
  · obtain rfl := Option.some.inj ht
    rfl
  · cases ht

theorem sound_customName : Sound customName fun ts name => ts = [.tag name] ∧ isReserved name = false := by
  unfold customName
  refine (Sound.select _ _).mono fun ts name h => ?_
  obtain ⟨t, rfl, ht⟩ := h
  split at ht
  · split at ht
    · cases ht
    · next hr =>
      obtain rfl := Option.some.inj ht
      exact ⟨rfl, Bool.eq_false_iff.2 hr⟩
  · cases ht

theorem sound_anyTag : Sound anyTag fun ts name => ts = [.tag name] := by
  unfold anyTag
  refine (Sound.select _ _).mono fun ts name h => ?_
  obtain ⟨t, rfl, ht⟩ := h
  split at ht
  · obtain rfl := Option.some.inj ht
    rfl
  · cases ht

theorem sound_params (hexpr : Sound expr SpellsExpr) :
    Sound (arguments bound expr) fun ts as => ∃ items : List (List Token × Expr),
      (∀ item ∈ items, SpellsExpr item.1 item.2) ∧
        ts = [.param .comma].intercalate (items.map Prod.fst) ∧ as = items.map Prod.snd :=
  Sound.separated (Sound.token _) hexpr bound

theorem sound_closed {α : Type} {p : Reader α} {R : List Token → α → Prop} (hp : Sound p R)
    (name : String) :
    Sound (do
      token .bodyStart
      let a ← p
      tag name
      pure a) fun ts a => ∃ us, ts = .bodyStart :: (us ++ [.tag name]) ∧ R us a := by
  refine ((Sound.token _).bind fun _ => hp.bind fun a => (Sound.token _).bind fun _ =>
    Sound.pure a).mono fun ts a h => ?_
  obtain ⟨_, _, -, rfl, rfl, us, _, a, rfl, ha, _, _, -, rfl, rfl, rfl, rfl⟩ := h
  exact ⟨us, rfl, ha⟩

theorem sound_branch {R : List Token → List Node → Prop} (hexpr : Sound expr SpellsExpr)
    (hbody : Sound body R) (name : String) : Sound (branch expr body name) (SpellsBranch R name) := by
  refine ((Sound.token _).bind fun _ => (sound_inParams hexpr).bind fun e => (Sound.token _).bind fun _ =>
    hbody.bind fun nodes => Sound.pure (some e, nodes)).mono fun ts b h => ?_
  obtain ⟨_, _, -, rfl, rfl, _, _, e, rfl, ⟨es, rfl, he⟩, _, _, -, rfl, rfl, us, _, nodes, rfl, hb, rfl,
    rfl⟩ := h
  rw [List.append_nil]
  exact .intro he hb

theorem sound_otherwise {R : List Token → List Node → Prop} (hbody : Sound body R) :
    Sound (otherwise body) fun ts b => SpellsLast R ts [b] := by
  refine ((Sound.token _).bind fun _ => (Sound.token _).optional.bind fun _ => hbody.bind fun nodes =>
    Sound.pure (none, nodes)).mono fun ts b h => ?_
  obtain ⟨_, _, -, rfl, rfl, _, _, found, rfl, hcolon, us, _, nodes, rfl, hb, rfl, rfl⟩ := h
  rw [List.append_nil]
  rcases hcolon with ⟨rfl, rfl⟩ | ⟨_, rfl, rfl⟩
  · exact .bare hb
  · exact .colon hb

theorem sound_exportTag {R : List Token → List Node → Prop} (hexpr : Sound expr SpellsExpr)
    (hbody : Sound body R) : Sound (exportTag expr body) (SpellsBlock R) := by
  have hvalue : Sound (do symbol .comma; expr) fun ts e => ∃ es, ts = .param .comma :: es ∧ SpellsExpr es e := by
    refine ((Sound.token _).bind fun _ => hexpr).mono fun ts e h => ?_
    obtain ⟨_, es, -, rfl, rfl, he⟩ := h
    exact ⟨es, rfl, he⟩
  have hkey := sound_inParams (sound_stringLiteral.bind fun key => hvalue.optional.bind fun value =>
    Sound.pure (key, value))
  have hread := (Sound.token (.tag "export")).bind fun _ => hkey.bind fun found =>
    (sound_closed hbody "endexport").optional.bind fun nodes => Sound.pure (found.1, found.2, nodes)
  refine (hread.checked).mono fun ts block h => ?_
  obtain ⟨_, ⟨_, _, -, rfl, rfl, _, _, _, rfl, ⟨_, rfl, _, _, key, rfl, rfl, _, _, value, rfl, hvalue, rfl, rfl⟩,
    _, _, nodes, rfl, hnodes, rfl, rfl⟩, hcheck⟩ := h
  rcases hvalue with ⟨rfl, rfl⟩ | ⟨e, rfl, es, rfl, he⟩
  · rcases hnodes with ⟨rfl, rfl⟩ | ⟨nodes, rfl, us, rfl, hb⟩
    · obtain rfl := Except.ok.inj hcheck
      exact .empty key
    · obtain rfl := Except.ok.inj hcheck
      simpa using SpellsBlock.body key hb
  · rcases hnodes with ⟨rfl, rfl⟩ | ⟨nodes, rfl, us, rfl, hb⟩
    · obtain rfl := Except.ok.inj hcheck
      simpa using SpellsBlock.value key he
    · cases hcheck

theorem sound_extendItem {R : List Token → List Node → Prop} (hexpr : Sound expr SpellsExpr)
    (hbody : Sound body R) : Sound (extendItem expr body) (SpellsItem R) := by
  refine Sound.choice fun p hp => ?_
  simp only [List.mem_cons, List.not_mem_nil, or_false] at hp
  rcases hp with rfl | rfl
  · refine ((sound_exportTag hexpr hbody).bind fun block => Sound.pure (some block)).mono fun ts item h => ?_
    obtain ⟨us, _, block, rfl, hblock, rfl, rfl⟩ := h
    rw [List.append_nil]
    exact .block hblock
  · refine sound_rawText.checked.mono fun ts item h => ?_
    obtain ⟨text, rfl, hcheck⟩ := h
    split at hcheck
    · next hblank =>
      obtain rfl := Except.ok.inj hcheck
      exact .blank hblank
    · cases hcheck

theorem sound_raw : Sound raw SpellsNode := by
  refine (sound_rawText.bind fun text => Sound.pure (Node.raw text)).mono fun ts node h => ?_
  obtain ⟨_, _, text, rfl, rfl, rfl, rfl⟩ := h
  exact .raw text

theorem sound_expressionTag (hexpr : Sound expr SpellsExpr) : Sound (expressionTag expr) SpellsNode := by
  refine ((sound_inParams hexpr).bind fun e => Sound.pure (Node.expression e)).mono fun ts node h => ?_
  obtain ⟨_, _, e, rfl, ⟨es, rfl, he⟩, rfl, rfl⟩ := h
  rw [List.append_nil]
  exact .expression he

theorem sound_loop (hexpr : Sound expr SpellsExpr) (hbody : Sound body Spells) :
    Sound (loop expr body) SpellsNode := by
  have hhead := sound_inParams (sound_ident.bind fun name => (Sound.token (.param .in)).bind fun _ =>
    hexpr.bind fun collection => Sound.pure (name, collection))
  refine ((Sound.token _).bind fun _ => hhead.bind fun head => (Sound.token _).bind fun _ =>
    hbody.bind fun nodes => (Sound.token _).bind fun _ =>
      Sound.pure (Node.loop head.1 head.2 nodes)).mono fun ts node h => ?_
  obtain ⟨_, _, -, rfl, rfl, _, _, _, rfl, ⟨_, rfl, _, _, name, rfl, rfl, _, _, -, rfl, rfl, es, _, e, rfl, he,
    rfl, rfl⟩, _, _, -, rfl, rfl, us, _, nodes, rfl, hb, _, _, -, rfl, rfl, rfl, rfl⟩ := h
  simpa using SpellsNode.loop name he hb

theorem sound_conditional (hexpr : Sound expr SpellsExpr) (hbody : Sound body Spells) :
    Sound (conditional bound expr body) SpellsNode := by
  refine ((sound_branch hexpr hbody "if").bind fun first =>
    ((sound_branch hexpr hbody "elseif").many bound).bind fun others =>
      (sound_otherwise hbody).optional.bind fun last => (Sound.token _).bind fun _ =>
        Sound.pure (Node.conditional (first :: others ++ last.toList))).mono fun ts node h => ?_
  obtain ⟨us, _, first, rfl, hfirst, vs, _, others, rfl, hothers, ws, _, last, rfl, hlast, _, _, -, rfl, rfl,
    rfl, rfl⟩ := h
  have hlast' : SpellsLast Spells ws last.toList := by
    rcases hlast with ⟨rfl, rfl⟩ | ⟨branch, rfl, h⟩
    · exact .absent
    · exact h
  exact .conditional hfirst hothers hlast'

theorem sound_extend (hexpr : Sound expr SpellsExpr) (hbody : Sound body Spells) :
    Sound (extend bound expr body) SpellsNode := by
  refine ((Sound.token _).bind fun _ => (sound_inParams sound_stringLiteral).bind fun template =>
    (sound_closed ((sound_extendItem hexpr hbody).many bound) "endextend").optional.bind fun items =>
      Sound.pure (Node.extend template (Table.ofKeyed ((items.getD []).filterMap id)))).mono
    fun ts node h => ?_
  obtain ⟨_, _, -, rfl, rfl, _, _, template, rfl, ⟨_, rfl, rfl⟩, _, _, items, rfl, hitems, rfl, rfl⟩ := h
  rcases hitems with ⟨rfl, rfl⟩ | ⟨items, rfl, us, rfl, h⟩
  · exact .extend template
  · simpa using SpellsNode.extendWith template h

theorem sound_importTag : Sound importTag SpellsNode := by
  refine ((Sound.token _).bind fun _ => (sound_inParams sound_stringLiteral).bind fun key =>
    Sound.pure (Node.importing key)).mono fun ts node h => ?_
  obtain ⟨_, _, -, rfl, rfl, _, _, key, rfl, ⟨_, rfl, rfl⟩, rfl, rfl⟩ := h
  exact .importing key

theorem sound_custom (hexpr : Sound expr SpellsExpr) (hbody : Sound body Spells) :
    Sound (custom bound expr body) SpellsNode := by
  have hclosed : Sound (do
      token .bodyStart
      let nodes ← body
      let closing ← anyTag
      pure (nodes, closing)) fun ts read =>
        ∃ us, ts = .bodyStart :: (us ++ [.tag read.2]) ∧ Spells us read.1 := by
    refine ((Sound.token _).bind fun _ => hbody.bind fun nodes => sound_anyTag.bind fun closing =>
      Sound.pure (nodes, closing)).mono fun ts read h => ?_
    obtain ⟨_, _, -, rfl, rfl, us, _, nodes, rfl, hb, _, _, closing, rfl, rfl, rfl, rfl⟩ := h
    exact ⟨us, rfl, hb⟩
  have hread := sound_customName.bind fun name => (sound_inParams (@sound_params bound _ hexpr)).bind
    fun params => hclosed.optional.bind fun nodes => Sound.pure (name, params, nodes)
  refine hread.checked.mono fun ts node h => ?_
  obtain ⟨_, ⟨_, _, name, rfl, ⟨rfl, hname⟩, _, _, _, rfl, ⟨_, rfl, params, hp, rfl, rfl⟩, _, _, found, rfl,
    hfound, rfl, rfl⟩, hcheck⟩ := h
  rcases hfound with ⟨rfl, rfl⟩ | ⟨⟨nodes, closing⟩, rfl, us, rfl, hb⟩
  · obtain rfl := Except.ok.inj hcheck
    simpa using SpellsNode.custom hname hp
  · dsimp only at hcheck
    split at hcheck
    · next hclosing =>
      obtain rfl := Except.ok.inj hcheck
      rw [hclosing]
      simpa using SpellsNode.customWith hname hp hb
    · cases hcheck

theorem sound_nodeWith (hexpr : Sound expr SpellsExpr) (hbody : Sound body Spells) :
    Sound (nodeWith bound expr body) SpellsNode := by
  refine Sound.choice fun p hp => ?_
  simp only [List.mem_cons, List.not_mem_nil, or_false] at hp
  rcases hp with rfl | rfl | rfl | rfl | rfl | rfl | rfl | rfl
  · exact sound_raw
  · exact sound_expressionTag hexpr
  · exact sound_loop hexpr hbody
  · exact sound_conditional hexpr hbody
  · exact sound_extend hexpr hbody
  · refine ((sound_exportTag hexpr hbody).bind fun block =>
      Sound.pure (Node.exporting block.1 block.2)).mono fun ts node h => ?_
    obtain ⟨us, _, block, rfl, hblock, rfl, rfl⟩ := h
    rw [List.append_nil]
    exact .exporting hblock
  · exact sound_importTag
  · exact sound_custom hexpr hbody

theorem sound_node (bound : Nat) : Sound (node bound) SpellsNode := by
  induction bound with
  | zero => intro ts a rest h; cases h
  | succ bound ih =>
    have hexpr : Sound (Grammar.expression (bound + 1)) SpellsExpr :=
      (sound_expression _).mono fun _ _ h => spellsExpr_iff.2 h
    exact sound_nodeWith hexpr (ih.many _)

theorem spells_of_readNodes {ts rest : List Lexeme} {nodes : List Node}
    (h : (readNodes ts).result = some (nodes, rest)) : rest = [] ∧ Spells (tokens ts) nodes := by
  obtain ⟨read, mid, hread, hend⟩ := exists_of_run_bind h
  obtain ⟨us, hus, hspells⟩ := (sound_node _).many _ ts read mid hread
  cases mid with
  | nil =>
    obtain ⟨rfl, rfl⟩ := Prod.mk.inj (Option.some.inj hend)
    rw [List.append_nil] at hus
    exact ⟨rfl, hus ▸ hspells⟩
  | cons l ls => cases hend

end Sound

end Grammar

end Templating
