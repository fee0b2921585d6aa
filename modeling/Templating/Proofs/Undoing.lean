import Templating.Proofs.Enclosing
import Templating.Proofs.Roundtrip

/-!
# Reading undoes writing

The source of nodes is read back as these nodes, whatever their depth, exactly if no raw text escapes
what is written behind it and none begins with a colon that opens a body. That it is sufficient rests on
what the nodes leave for each other, that it is necessary on what no text can hold.
-/

namespace Templating

namespace Node

/-! ### What keeps its place -/

/-- Nodes that have a source: each by itself, and each beside its neighbours. -/
structure Written (nodes : List Node) : Prop where
  fits : ∀ node ∈ nodes, node.Fits
  beside : nodes.IsChain Beside

/-- A body that keeps its place in front of the tag behind it. -/
structure Enclosed (body : List Node) : Prop where
  keeps : body.IsChain Keeps
  last : ∀ text, body.getLast? = some (.raw text) → text.toList.getLast? ≠ some '\\'

/-- Nodes that keep their places, at whatever depth. -/
structure Kept (nodes : List Node) : Prop where
  keeps : nodes.IsChain Keeps
  within : ∀ node ∈ nodes, ∀ body ∈ node.bodies, Throughout Enclosed body

theorem Enclosed.of_expression (e : Expr) : Enclosed [.expression e] :=
  ⟨.singleton _, fun _ h => Node.noConfusion (Option.some.inj h)⟩

theorem Enclosed.nil : Enclosed [] := ⟨.nil, nofun⟩

end Node

namespace Lexer

open Node Text

/-! ### What is kept is read back -/

theorem follows_nil (node : Node) : Follows node [] := by
  refine ⟨fun text _ => ⟨fun _ => nofun, fun ts hts hraw => ?_⟩, fun _ => nofun, fun _ => nofun⟩
  obtain rfl := Option.some.inj (scan_text_nil.symm.trans hts)
  exact hraw

theorem Ends.follows {cs : List Char} (h : Ends cs) {node : Node}
    (hnode : ∀ text, node = .raw text → text.toList.getLast? ≠ some '\\') : Follows node cs :=
  ⟨fun text hraw => ⟨fun hlast => absurd hlast (hnode text hraw), h.2⟩, fun _ => h.endsTag,
    fun _ hhead => absurd (h.1.symm.trans hhead) (by decide)⟩

theorem head_source_of_not_raw {node : Node} (h : node.isRaw = false) (cs : List Char) :
    (node.source.toList ++ cs).head? = some '#' := by
  cases node with
  | raw text => cases h
  | conditional branches =>
    cases branches with
    | nil => simp [Node.source, Node.sourceBranches]
    | cons branch branches =>
      obtain ⟨_ | e, body⟩ := branch <;> simp [Node.source, Node.sourceBranches]
  | custom name params body => cases body <;> simp [Node.source]
  | _ => simp [Node.source]

theorem exists_cons_of_spells {node : Node} {ts : List Token} (h : Grammar.SpellsNode ts node)
    (hnode : node.isRaw = false) : ∃ t us, ts = t :: us ∧ ¬ StartsRaw [t] := by
  cases h with
  | raw text => cases hnode
  | conditional hf ho hl =>
    cases hf with
    | intro he hb => exact ⟨_, _, rfl, id⟩
  | exporting h => cases h <;> exact ⟨_, _, rfl, id⟩
  | _ => exact ⟨_, _, rfl, id⟩

theorem PrintsNode.ends {node : Node} {us : List Token} (h : PrintsNode node us) (hnode : node.isRaw = false)
    {cs : List Char} (hcs : Follows node cs) : Ends (node.source.toList ++ cs) := by
  have hscan := h.scans cs hcs
  obtain ⟨t, us, rfl, ht⟩ := exists_cons_of_spells h.spells hnode
  exact ends_of_scan (head_source_of_not_raw hnode cs) hscan ht

/-- The head of guarded text is the text's own, or a backslash. -/
theorem head_guarded_append {text : String} (h : text ≠ "") (cs : List Char) :
    ∃ c ∈ text.toList.head?, (guarded text.toList ++ cs).head? = some (if c = '#' then '\\' else c) := by
  cases hlist : text.toList with
  | nil => exact absurd (String.toList_eq_nil_iff.1 hlist) h
  | cons c more =>
    refine ⟨c, rfl, ?_⟩
    rw [guarded, List.flatMap_cons]
    split <;> rfl

theorem follows_raw {node : Node} {text : String} (htext : text ≠ "") (hb : node.Beside (.raw text))
    (hk : node.Keeps (.raw text)) (cs : List Char) :
    Follows node ((Node.raw text).source.toList ++ cs) := by
  obtain ⟨hraw, hcloses⟩ := hb text rfl
  obtain ⟨c, hc, hhead⟩ := head_guarded_append htext cs
  rw [Node.source, String.toList_ofList]
  refine ⟨fun other hother => ?_, fun hnode d hd => ?_, fun hnode hd => ?_⟩
  · rw [hother] at hraw
    cases hraw
  · obtain rfl := Option.some.inj (hhead.symm.trans hd)
    split
    · exact ⟨by decide, by decide⟩
    · exact hcloses hnode c hc
  · have hcolon := Option.some.inj (hhead.symm.trans hd)
    split at hcolon
    · exact absurd hcolon (by decide)
    · exact hk.2 text rfl hnode (hcolon ▸ hc)

theorem follows_next {node next : Node} {us : List Token} (hb : node.Beside next) (hk : node.Keeps next)
    (hnext : PrintsNode next us) (hfits : next.Fits) {cs : List Char} (hcs : Follows next cs) :
    Follows node (next.source.toList ++ cs) := by
  cases hraw : next.isRaw with
  | true =>
    cases next with
    | raw text => exact follows_raw hfits hb hk cs
    | _ => cases hraw
  | false => exact (hnext.ends hraw hcs).follows hk.1

theorem follows_nodes {node : Node} {nodes : List Node} (hprints : ∀ n ∈ nodes, ∃ us, PrintsNode n us)
    (hfits : ∀ n ∈ nodes, n.Fits) (hb : (node :: nodes).IsChain Beside) (hk : (node :: nodes).IsChain Keeps)
    {rest : List Char} (hrest : ∀ last ∈ (node :: nodes).getLast?, Follows last rest) :
    Follows node ((Node.sourceBody nodes).toList ++ rest) := by
  induction nodes generalizing node with
  | nil => exact hrest node rfl
  | cons next nodes ih =>
    -- what follows the next node follows it, so its source is scanned and tells what follows this one
    obtain ⟨⟨us, hus⟩, hprints⟩ := List.forall_mem_cons.1 hprints
    obtain ⟨hnext, hfits⟩ := List.forall_mem_cons.1 hfits
    obtain ⟨hbeside, hb⟩ := List.isChain_cons_cons.1 hb
    obtain ⟨hkeeps, hk⟩ := List.isChain_cons_cons.1 hk
    rw [Node.sourceBody, String.toList_append, List.append_assoc]
    rw [List.getLast?_cons_cons] at hrest
    exact follows_next hbeside hkeeps hus hnext (ih hprints hfits hb hk hrest)

theorem prints_nodes {nodes : List Node} (hprints : ∀ node ∈ nodes, ∃ us, PrintsNode node us)
    (hfits : ∀ node ∈ nodes, node.Fits) (hb : nodes.IsChain Beside) (hk : nodes.IsChain Keeps) :
    ∃ us, Grammar.Spells us nodes ∧ ∀ rest, (∀ last ∈ nodes.getLast?, Follows last rest) →
      scan .text ((Node.sourceBody nodes).toList ++ rest) = inFront us (scan .text rest) := by
  induction nodes with
  | nil => exact ⟨[], .nil, fun rest _ => (inFront_nil _).symm⟩
  | cons node nodes ih =>
    obtain ⟨⟨ts, hts⟩, hmore⟩ := List.forall_mem_cons.1 hprints
    obtain ⟨-, hfits⟩ := List.forall_mem_cons.1 hfits
    obtain ⟨us, hus, hscans⟩ := ih hmore hfits hb.tail hk.tail
    refine ⟨ts ++ us, .cons hts.spells hus, fun rest hrest => ?_⟩
    have hlast : ∀ last ∈ nodes.getLast?, Follows last rest := fun last hm => by
      refine hrest last ?_
      cases nodes with
      | nil => cases hm
      | cons next more => rwa [List.getLast?_cons_cons]
    have hscan := hts.scans _ (follows_nodes hmore hfits hb hk hrest)
    rw [hscans rest hlast, inFront_inFront] at hscan
    rw [Node.sourceBody, String.toList_append, List.append_assoc]
    exact hscan

theorem exists_printsBody {body : List Node} (h : Throughout Written body) (hk : Throughout Enclosed body) :
    ∃ us, PrintsBody body us := by
  induction h with
  | @intro body here _ ih =>
    obtain ⟨henclosed, hwithin⟩ := hk
    have hprints : ∀ node ∈ body, ∃ us, PrintsNode node us := fun node hn =>
      exists_printsNode (here.fits node hn) fun inner hb => ih node hn inner hb (hwithin node hn inner hb)
    obtain ⟨us, hus, hscans⟩ := prints_nodes hprints here.fits here.beside henclosed.keeps
    refine ⟨us, hus, fun rest hrest => hscans rest fun last hlast => hrest.follows fun text htext => ?_⟩
    exact henclosed.last text (htext ▸ hlast)

theorem spells_of_kept {nodes : List Node} (h : Kept nodes) (hwritten : Throughout Written nodes) :
    ∃ us, scan .text (Node.sourceBody nodes).toList = some us ∧ Grammar.Spells us nodes := by
  obtain ⟨here, hwithin⟩ := hwritten
  have hprints : ∀ node ∈ nodes, ∃ us, PrintsNode node us := fun node hn =>
    exists_printsNode (here.fits node hn) fun body hb =>
      exists_printsBody (hwithin node hn body hb) (h.within node hn body hb)
  obtain ⟨us, hus, hscans⟩ := prints_nodes hprints here.fits here.beside h.keeps
  refine ⟨us, ?_, hus⟩
  have hscan := hscans [] fun last _ => follows_nil last
  rw [List.append_nil, scan_text_nil] at hscan
  exact hscan.trans (congrArg some (List.append_nil us))

end Lexer

namespace Grammar

open Node Lexer

/-! ### What is read is kept -/

theorem isParam_intercalate {items : List (List Token × Expr)}
    (h : ∀ item ∈ items, ∀ t ∈ item.1, ∃ p, t = .param p) :
    ∀ t ∈ [Token.param .comma].intercalate (items.map Prod.fst), ∃ p, t = .param p := by
  cases items with
  | nil => simp [List.intercalate]
  | cons item items =>
    obtain ⟨hitem, hitems⟩ := List.forall_mem_cons.1 h
    rw [List.map_cons, intercalate_cons]
    simp only [List.mem_append, List.mem_flatMap, List.mem_map, List.mem_cons]
    rintro t (ht | ⟨_, ⟨next, hnext, rfl⟩, rfl | ht⟩)
    · exact hitem t ht
    · exact ⟨_, rfl⟩
    · exact hitems next hnext t ht

theorem SpellsAt.isParam {n : Nat} {ts : List Token} {e : Expr} (h : SpellsAt n ts e) :
    ∀ t ∈ ts, ∃ p, t = .param p := by
  induction h with
  | literal value => cases value <;> simp [Literal.token]
  | path first rest =>
    simp only [List.mem_cons, List.mem_flatMap, List.not_mem_nil, or_false]
    rintro t (rfl | ⟨key, _, rfl | rfl⟩) <;> exact ⟨_, rfl⟩
  | call name _ ih =>
    simp only [List.mem_cons, List.mem_append, List.not_mem_nil, or_false]
    rintro t (rfl | rfl | ht | rfl)
    · exact ⟨_, rfl⟩
    · exact ⟨_, rfl⟩
    · exact isParam_intercalate ih t ht
    · exact ⟨_, rfl⟩
  | parenthesised _ ih =>
    simp only [List.mem_cons, List.mem_append, List.not_mem_nil, or_false]
    rintro t (rfl | ht | rfl)
    · exact ⟨_, rfl⟩
    · exact ih t ht
    · exact ⟨_, rfl⟩
  | operand _ ih => exact ih
  | signed op _ ih => exact List.forall_mem_cons.2 ⟨by cases op <;> exact ⟨_, rfl⟩, ih⟩
  | tighter _ _ ih => exact ih
  | binary _ _ _ ihl ihr => exact List.forall_mem_append.2 ⟨ihl, List.forall_mem_cons.2 ⟨⟨_, rfl⟩, ihr⟩⟩

theorem spellsNode_raw {ts : List Token} {text : String} (h : SpellsNode ts (.raw text)) :
    ts = [.raw text] := by
  cases h with
  | raw => rfl

theorem keeps_of_spells {ts us vs : List Token} {node next : Node} (h : SpellsNode ts node)
    (hnext : SpellsNode us next) (htidy : Tidy (ts ++ (us ++ vs))) : node.Keeps next := by
  refine ⟨fun text htext => ?_, fun text htext hopens => ?_⟩
  · subst htext
    obtain rfl := spellsNode_raw h
    obtain ⟨u, us, rfl, -⟩ := starts_node us next hnext
    exact ((List.isChain_cons_cons.1 htidy.apart).1 text rfl).2
  · subst htext
    obtain rfl := spellsNode_raw hnext
    cases h with
    | importing key =>
      exact htidy.colons [] "import" [.param (.text key)] text vs rfl (by decide) (by simp)
    | @custom name hname params hp =>
      refine htidy.colons [] name _ text vs ?_ (Bool.or_eq_false_iff.1 hname).2
        (isParam_intercalate fun param hm => (spellsExpr_iff.1 (hp param hm)).isParam)
      simp [inParens]
    | _ => cases hopens

theorem isChain_keeps {ts : List Token} {nodes : List Node} (h : Spells ts nodes) (htidy : Tidy ts) :
    nodes.IsChain Keeps := by
  induction h with
  | nil => exact .nil
  | @cons ts us node nodes head tail ih =>
    have hrest := ih (htidy.within (List.suffix_append ts us).isInfix)
    cases tail with
    | nil => exact .singleton node
    | cons hnext _ => exact List.isChain_cons_cons.2 ⟨keeps_of_spells head hnext htidy, hrest⟩

theorem exists_snoc_of_spells {ts : List Token} {body : List Node} {text : String} (h : Spells ts body)
    (hlast : body.getLast? = some (.raw text)) : ∃ us, ts = us ++ [.raw text] := by
  induction h with
  | nil => cases hlast
  | @cons ts us node nodes head tail ih =>
    cases tail with
    | nil =>
      obtain rfl := Option.some.inj hlast
      exact ⟨[], (List.append_nil ts).trans (spellsNode_raw head)⟩
    | cons _ _ =>
      rw [List.getLast?_cons_cons] at hlast
      obtain ⟨vs, hvs⟩ := ih hlast
      exact ⟨ts ++ vs, by rw [hvs, List.append_assoc]⟩

theorem enclosed_of_spells {ts : List Token} {u : Token} {body : List Node} (h : Spells ts body)
    (htidy : Tidy (ts ++ [u])) : Enclosed body := by
  refine ⟨isChain_keeps h (htidy.within (List.prefix_append ts [u]).isInfix), fun text hlast => ?_⟩
  obtain ⟨us, rfl⟩ := exists_snoc_of_spells h hlast
  have hpair : Tidy [.raw text, u] := htidy.within ⟨us, [], by simp⟩
  exact ((List.isChain_cons_cons.1 hpair.apart).1 text rfl).2

/-- A body with tokens of its own has one more behind it, so its last raw text escapes nothing. -/
theorem throughout_enclosed {node : Node} {ts : List Token} (h : SpellsNode ts node) (htidy : Tidy ts) :
    ∀ body ∈ node.bodies, Throughout Enclosed body :=
  throughout_bodies Tidy.within enclosed_of_spells .nil .of_expression h htidy

theorem kept_of_parse {source : String} {nodes : List Node} (h : parse source = .ok nodes) : Kept nodes := by
  obtain ⟨ts, hscan, hspells⟩ := parse_eq_ok_iff.1 h
  have htidy := (stream_of_scan hscan).tidy
  refine ⟨isChain_keeps hspells htidy, fun node hn => ?_⟩
  obtain ⟨us, hus, hin⟩ := hspells.exists_tokens hn
  exact throughout_enclosed hus (htidy.within hin)

end Grammar

namespace Node

/-- The source of nodes is read back as these nodes exactly if they keep their places. -/
theorem parse_sourceBody_eq_ok_iff {nodes : List Node} (h : Throughout Written nodes) :
    parse (sourceBody nodes) = .ok nodes ↔ Kept nodes := by
  refine ⟨Grammar.kept_of_parse, fun hkept => ?_⟩
  obtain ⟨ts, hscan, hspells⟩ := Lexer.spells_of_kept hkept h
  exact Grammar.parse_eq_ok_iff.2 ⟨ts, hscan, hspells⟩

/-- A block with a place for another, in an extend, in a loop. -/
theorem parse_sourceBody_nested :
    let block : List Node := [.importing "k", .raw "("]
    let body : List Node := [.extend "a \"page\"" [("k", "k", block)]]
    let nodes : List Node := [.raw "#", .loop "x" (.path "xs" []) body, .raw ": \\"]
    Throughout Written nodes ∧ Kept nodes ∧ parse (sourceBody nodes) = .ok nodes := by
  intro block body nodes
  have hloop : (loop "x" (.path "xs" []) body).Fits := ⟨by decide, .path (by decide) (by simp)⟩
  have hwithin : ∀ {P : List Node → Prop}, P block → P body →
      ∀ node ∈ nodes, ∀ body ∈ node.bodies, Throughout P body := by
    intro P hblock hbody
    have hinner : Throughout P block := .intro hblock (by simp [block, bodies])
    have houter : Throughout P body := .intro hbody (by simpa [body, bodies] using hinner)
    simpa [nodes, bodies] using houter
  have hwritten : Throughout Written nodes := by
    refine .intro ⟨by simp [nodes, Fits, hloop.1, hloop.2], ?_⟩ (hwithin ⟨?_, ?_⟩ ⟨?_, .singleton _⟩)
    · simp [nodes, Beside, isRaw, closes]
      decide
    · simp [block, Fits]
    · simp [block, Beside, isRaw, closes]
    · exact List.forall_mem_singleton.2 ⟨List.pairwise_singleton _ _, List.forall_mem_singleton.2 rfl⟩
  have hkept : Kept nodes := by
    refine ⟨by simp [nodes, Keeps, opens], hwithin ⟨?_, ?_⟩ ⟨.singleton _, ?_⟩⟩
    · simp [block, Keeps]
    · simp [block]
    · simp [body]
  exact ⟨hwritten, hkept, (parse_sourceBody_eq_ok_iff hwritten).2 hkept⟩

end Node

end Templating
