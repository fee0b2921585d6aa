import Templating.Proofs.Scanning
import Templating.Proofs.Spelling

/-!
# Accepted templates

All that is spelled is read, and read in one way. A body ends where a tag stands that begins no node, so
that repetition never takes what closes a body; for this a tag with a body of its own needs a name, since
`end` alone is a name like any other. No text has a tag without a name.
-/

namespace Templating

namespace Grammar

open Reader

/-! ### Where a body ends -/

/-- The tags that close or divide a body; no node begins with one. -/
def Closes (t : Token) : Prop := ∃ name, t = .tag name ∧ (isKeywordTag name = true ∨ name = "elseif")

theorem Closes.ne_bodyStart {t : Token} (h : Closes t) : t ≠ .bodyStart := by
  obtain ⟨name, rfl, -⟩ := h
  exact Token.noConfusion

theorem ne_of_isReserved {name other : String} (h : isReserved name = false)
    (hother : isReserved other = true) : name ≠ other := by
  rintro rfl
  rw [h] at hother
  cases hother

theorem not_closes_of_isReserved {name : String} (h : isReserved name = false) : ¬ Closes (.tag name) := by
  rintro ⟨other, he, hclose⟩
  obtain rfl : name = other := Token.tag.inj he
  rcases hclose with hkeyword | rfl
  · rw [isReserved, hkeyword, Bool.or_true] at h
    cases h
  · exact ne_of_isReserved h (by decide) rfl

theorem closes_end {name : String} (h : name ≠ "") : Closes (.tag ("end" ++ name)) := by
  refine ⟨_, rfl, .inl ?_⟩
  have hprefix : ['e', 'n', 'd'].isPrefixOf ("end" ++ name).toList = true := by
    rw [String.toList_append]
    exact List.isPrefixOf_iff_prefix.2 ⟨name.toList, rfl⟩
  have hpos : 0 < name.length := by
    rw [← String.length_toList]
    exact List.length_pos_iff.2 fun hnil => h (String.toList_eq_nil_iff.1 hnil)
  have hlength : 3 < ("end" ++ name).length := by
    rw [String.length_append]
    exact Nat.lt_add_of_pos_right hpos
  rw [isKeywordTag, hprefix, decide_eq_true hlength, Bool.and_self, Bool.or_true]

theorem starts_node : Starts SpellsNode fun t => t ≠ .bodyStart ∧ ¬ Closes t := by
  have htag : ∀ {name : String}, isKeywordTag name = false → name ≠ "elseif" →
      Token.tag name ≠ .bodyStart ∧ ¬ Closes (.tag name) := by
    intro name hkeyword helseif
    refine ⟨Token.noConfusion, ?_⟩
    rintro ⟨other, he, hclose⟩
    obtain rfl : name = other := Token.tag.inj he
    rcases hclose with h | h
    · rw [h] at hkeyword
      cases hkeyword
    · exact helseif h
  intro ts node h
  cases h with
  | raw text => exact ⟨_, _, rfl, Token.noConfusion, fun ⟨_, h, _⟩ => Token.noConfusion h⟩
  | expression _ => exact ⟨_, _, rfl, Token.noConfusion, fun ⟨_, h, _⟩ => Token.noConfusion h⟩
  | loop => exact ⟨_, _, rfl, htag (by decide) (by decide)⟩
  | conditional hf =>
    cases hf with
    | intro => exact ⟨_, _, rfl, htag (by decide) (by decide)⟩
  | extend => exact ⟨_, _, rfl, htag (by decide) (by decide)⟩
  | extendWith => exact ⟨_, _, rfl, htag (by decide) (by decide)⟩
  | exporting h =>
    cases h with
    | value => exact ⟨_, _, rfl, htag (by decide) (by decide)⟩
    | body => exact ⟨_, _, rfl, htag (by decide) (by decide)⟩
    | empty => exact ⟨_, _, rfl, htag (by decide) (by decide)⟩
  | importing => exact ⟨_, _, rfl, htag (by decide) (by decide)⟩
  | custom hname => exact ⟨_, _, rfl, Token.noConfusion, not_closes_of_isReserved hname⟩
  | customWith hname => exact ⟨_, _, rfl, Token.noConfusion, not_closes_of_isReserved hname⟩

/-- A node spelled by tokens none of which is a tag without a name. -/
def SpellsNamedNode (ts : List Token) (node : Node) : Prop := .tag "" ∉ ts ∧ SpellsNode ts node

def SpellsNamed (ts : List Token) (nodes : List Node) : Prop := .tag "" ∉ ts ∧ Spells ts nodes

theorem starts_namedNode : Starts SpellsNamedNode (· ≠ .bodyStart) := fun ts node h =>
  let ⟨t, us, ht, hne, _⟩ := starts_node ts node h.2
  ⟨t, us, ht, hne⟩

theorem SpellsNamed.each {ts : List Token} {nodes : List Node} (h : SpellsNamed ts nodes) :
    Each SpellsNamedNode ts nodes :=
  h.2.notMem h.1

theorem SpellsNamed.next {us rest : List Lexeme} {nodes : List Node} (h : SpellsNamed (tokens us) nodes)
    (hrest : Next Closes rest) : Next (· ≠ .bodyStart) (us ++ rest) :=
  starts_namedNode.next_each h.each (hrest.mono fun _ ht => ht.ne_bodyStart)

section Named

variable {ts : List Token}

theorem SpellsBranch.named {name : String} {branch : Option Expr × List Node}
    (h : SpellsBranch Spells name ts branch) (hnamed : .tag "" ∉ ts) :
    SpellsBranch SpellsNamed name ts branch := by
  cases h with
  | intro he hb => exact .intro he ⟨by simp_all, hb⟩

theorem SpellsLast.named {last : List (Option Expr × List Node)} (h : SpellsLast Spells ts last)
    (hnamed : .tag "" ∉ ts) : SpellsLast SpellsNamed ts last := by
  cases h with
  | absent => exact .absent
  | colon hb => exact .colon ⟨by simp_all, hb⟩
  | bare hb => exact .bare ⟨by simp_all, hb⟩

theorem SpellsBlock.named {block : Export} (h : SpellsBlock Spells ts block)
    (hnamed : .tag "" ∉ ts) : SpellsBlock SpellsNamed ts block := by
  cases h with
  | value key he => exact .value key he
  | body key hb => exact .body key ⟨by simp_all, hb⟩
  | empty key => exact .empty key

theorem SpellsItem.named {item : Option Export} (h : SpellsItem Spells ts item)
    (hnamed : .tag "" ∉ ts) : SpellsItem SpellsNamed ts item := by
  cases h with
  | blank h => exact .blank h
  | block h => exact .block (h.named hnamed)

end Named

/-! ### All that is spelled is read -/

section Complete

variable {bound : Nat} {expr : Reader Expr} {body : Reader (List Node)}

/-- The readers of the parts of a node take their shorter parts whole. -/
structure Parts (bound : Nat) (expr : Reader Expr) (body : Reader (List Node)) : Prop where
  readsExpr : Complete expr SpellsExpr bound fun t => t = .paramsClose ∨ t = .param .comma
  soundExpr : Sound expr SpellsExpr
  readsBody : Complete body SpellsNamed bound Closes

theorem run_inParams {α : Type} {p : Reader α} {us rest : List Lexeme} {ts : List Token} {a : α}
    (hus : tokens us = inParens ts)
    (hp : ∀ (ls : List Lexeme) (close : Lexeme), tokens ls = ts → ls.length + 2 = us.length →
      close.token = .paramsClose → run p (ls ++ close :: rest) = some (a, close :: rest)) :
    run (inParams p) (us ++ rest) = some (a, rest) := by
  obtain ⟨o, os, rfl, ho, hos⟩ := tokens_eq_cons hus
  obtain ⟨ls, cs, rfl, hls, hcs⟩ := tokens_eq_append hos
  obtain ⟨c, rfl, hc⟩ := tokens_eq_singleton hcs
  have hread := hp ls c hls (by simp) hc
  have hsplit : o :: (ls ++ [c]) ++ rest = o :: (ls ++ c :: rest) := by simp
  rw [hsplit]
  refine (run_bind_of_eq (run_token_of_eq ho _) _).trans ?_
  exact (run_bind_of_eq hread _).trans (run_bind_of_eq (run_token_of_eq hc rest) _)

theorem run_stringLiteral {l : Lexeme} {s : String} (h : l.token = .param (.text s)) (ls : List Lexeme) :
    run stringLiteral (l :: ls) = some (s, ls) := by
  unfold stringLiteral sort
  rw [run_select_cons, h]
  rfl

theorem run_inParams_text {us rest : List Lexeme} {s : String}
    (hus : tokens us = inParens [.param (.text s)]) :
    run (inParams stringLiteral) (us ++ rest) = some (s, rest) := by
  refine run_inParams hus fun ls close hls _ _ => ?_
  obtain ⟨l, rfl, hl⟩ := tokens_eq_singleton hls
  exact run_stringLiteral hl _

theorem Parts.run_inParams (h : Parts bound expr body) {us rest : List Lexeme} {ts : List Token} {e : Expr}
    (hus : tokens us = inParens ts) (he : SpellsExpr ts e) (hlength : us.length ≤ bound) :
    run (inParams expr) (us ++ rest) = some (e, rest) := by
  refine Grammar.run_inParams hus fun ls close hls hlen hclose => ?_
  exact h.readsExpr ls e (close :: rest) (hls ▸ he) (by omega) (.inl hclose)

theorem Parts.run_params (h : Parts bound expr body) {us rest : List Lexeme}
    {params : List (List Token × Expr)} (hp : ∀ param ∈ params, SpellsExpr param.1 param.2)
    (hus : tokens us = inParens ([.param .comma].intercalate (params.map Prod.fst)))
    (hlength : us.length ≤ bound) :
    run (inParams (arguments (bound + 1) expr)) (us ++ rest) = some (params.map Prod.snd, rest) := by
  refine Grammar.run_inParams hus fun ls close hls hlen hclose => ?_
  have hstarts : Starts SpellsExpr fun t => beginsExpr t = true :=
    fun ts e he => starts_spellsAt 7 ts e (spellsExpr_iff.1 he)
  have hbegins : Next (fun t => ¬ beginsExpr t = true) (close :: rest) := by
    show ¬ beginsExpr close.token = true
    rw [hclose]
    exact Bool.false_ne_true
  have hstop : run expr (close :: rest) = none := h.soundExpr.eq_none hstarts hbegins
  have hnext : Next (fun t => (t = .paramsClose ∨ t = .param .comma) ∧ t ≠ .param .comma) (close :: rest) :=
    ⟨.inl hclose, by rw [hclose]; decide⟩
  exact h.readsExpr.separated (.inr rfl) hp hls (by omega) hnext hstop (by omega)

/-- A body behind its colon is taken with the tag that closes it. -/
theorem run_closed {α : Type} {p : Reader α} {us rest : List Lexeme} {ts : List Token} {name : String} {a : α}
    (hus : tokens us = .bodyStart :: (ts ++ [.tag name]))
    (hp : ∀ (ls : List Lexeme) (close : Lexeme), tokens ls = ts → ls.length + 2 = us.length →
      close.token = .tag name → run p (ls ++ close :: rest) = some (a, close :: rest)) :
    run (do
      token .bodyStart
      let a ← p
      tag name
      pure a) (us ++ rest) = some (a, rest) := by
  obtain ⟨o, os, rfl, ho, hos⟩ := tokens_eq_cons hus
  obtain ⟨ls, cs, rfl, hls, hcs⟩ := tokens_eq_append hos
  obtain ⟨c, rfl, hc⟩ := tokens_eq_singleton hcs
  have hread := hp ls c hls (by simp) hc
  have hsplit : o :: (ls ++ [c]) ++ rest = o :: (ls ++ c :: rest) := by simp
  rw [hsplit]
  refine (run_bind_of_eq (run_token_of_eq ho _) _).trans ?_
  exact (run_bind_of_eq hread _).trans (run_bind_of_eq (run_token_of_eq hc rest) _)

theorem run_closed_of_next {α : Type} {p : Reader α} {rest : List Lexeme} (name : String)
    (h : Next (· ≠ .bodyStart) rest) :
    run (do
      token .bodyStart
      let a ← p
      tag name
      pure a) rest = none :=
  run_bind_of_none (run_token_of_next h) _

theorem Parts.run_branch (h : Parts bound expr body) (name : String) :
    Complete (branch expr body name) (SpellsBranch SpellsNamed name) (bound + 1) Closes := by
  intro us read rest hspells hlength hnext
  generalize hts : tokens us = ts at hspells
  cases hspells with
  | @intro es bs e nodes he hb =>
    obtain ⟨t, us, rfl, ht, hus⟩ := tokens_eq_cons hts
    obtain ⟨ps, cs, rfl, hps, hcs⟩ := tokens_eq_append hus
    obtain ⟨c, bs, rfl, hc, rfl⟩ := tokens_eq_cons hcs
    simp only [List.length_cons, List.length_append] at hlength
    have hparams := @Parts.run_inParams _ _ _ h ps (c :: (bs ++ rest)) _ _ hps he (by omega)
    have hbody : run body (bs ++ rest) = some (nodes, rest) := h.readsBody bs nodes rest hb (by omega) hnext
    have hsplit : t :: (ps ++ c :: bs) ++ rest = t :: (ps ++ c :: (bs ++ rest)) := by simp
    rw [hsplit]
    refine (run_bind_of_eq (run_token_of_eq ht _) _).trans ((run_bind_of_eq hparams _).trans ?_)
    exact (run_bind_of_eq (run_token_of_eq hc _) _).trans (run_bind_of_eq hbody _)

theorem Parts.run_otherwise (h : Parts bound expr body) {us rest : List Lexeme}
    {last : Option Expr × List Node} (hspells : SpellsLast SpellsNamed (tokens us) [last])
    (hlength : us.length < bound + 1) (hnext : Next Closes rest) :
    run (otherwise body) (us ++ rest) = some (last, rest) := by
  generalize hts : tokens us = ts at hspells
  cases hspells with
  | @colon bs nodes hb =>
    obtain ⟨t, us, rfl, ht, hus⟩ := tokens_eq_cons hts
    obtain ⟨c, bs, rfl, hc, rfl⟩ := tokens_eq_cons hus
    simp only [List.length_cons] at hlength
    have hbody : run body (bs ++ rest) = some (nodes, rest) := h.readsBody bs nodes rest hb (by omega) hnext
    refine (run_bind_of_eq (run_token_of_eq ht _) _).trans ?_
    refine (run_bind_of_eq (run_optional_of_some (run_token_of_eq hc (bs ++ rest))) _).trans ?_
    exact run_bind_of_eq hbody _
  | @bare bs nodes hb =>
    obtain ⟨t, bs, rfl, ht, rfl⟩ := tokens_eq_cons hts
    simp only [List.length_cons] at hlength
    have hbody : run body (bs ++ rest) = some (nodes, rest) := h.readsBody bs nodes rest hb (by omega) hnext
    have hcolon : run (token .bodyStart) (bs ++ rest) = none := run_token_of_next (hb.next hnext)
    refine (run_bind_of_eq (run_token_of_eq ht _) _).trans ?_
    exact (run_bind_of_eq (run_optional_of_none hcolon) _).trans (run_bind_of_eq hbody _)

theorem closes_of_isKeywordTag {name : String} (h : isKeywordTag name = true) : Closes (.tag name) :=
  ⟨name, rfl, .inl h⟩

theorem run_exportKey {us rest : List Lexeme} {key : String}
    (hus : tokens us = inParens [.param (.text key)]) (expr : Reader Expr) :
    run (inParams do
        let key ← stringLiteral
        let value ← optional do
          symbol .comma
          expr
        pure (key, value)) (us ++ rest) = some ((key, none), rest) := by
  refine Grammar.run_inParams hus fun ls close hls _ hclose => ?_
  obtain ⟨k, rfl, hk⟩ := tokens_eq_singleton hls
  have hcomma : run (symbol .comma) (close :: rest) = none := by
    refine run_token_of_ne ?_ rest
    rw [hclose]
    decide
  refine (run_bind_of_eq (run_stringLiteral hk _) _).trans ?_
  exact run_bind_of_eq (run_optional_of_none (run_bind_of_none hcomma _)) _

theorem Parts.run_exportTag (h : Parts bound expr body) :
    Complete (exportTag expr body) (SpellsBlock SpellsNamed) (bound + 1) (· ≠ .bodyStart) := by
  intro us block rest hspells hlength hnext
  unfold exportTag
  generalize hts : tokens us = ts at hspells
  cases hspells with
  | @value key es e he =>
    obtain ⟨t, us, rfl, ht, hus⟩ := tokens_eq_cons hts
    simp only [List.length_cons] at hlength
    have hparams : run (inParams do
        let key ← stringLiteral
        let value ← optional do
          symbol .comma
          expr
        pure (key, value)) (us ++ rest) = some ((key, some e), rest) := by
      refine Grammar.run_inParams hus fun ls close hls hlen hclose => ?_
      obtain ⟨k, ks, rfl, hk, hks⟩ := tokens_eq_cons hls
      obtain ⟨c, es, rfl, hc, rfl⟩ := tokens_eq_cons hks
      simp only [List.length_cons] at hlen
      have hread : run expr (es ++ close :: rest) = some (e, close :: rest) :=
        h.readsExpr es e (close :: rest) he (by omega) (.inl hclose)
      have hvalue : run (do symbol .comma; expr) (c :: (es ++ close :: rest)) = some (e, close :: rest) :=
        (run_bind_of_eq (run_token_of_eq hc _) _).trans hread
      refine (run_bind_of_eq (run_stringLiteral hk _) _).trans ?_
      exact run_bind_of_eq (run_optional_of_some hvalue) _
    refine @run_checked_of_ok _ _ _ _ _ _ (key, some e, none) _ ?_ rfl
    refine (run_bind_of_eq (run_token_of_eq ht _) _).trans ((run_bind_of_eq hparams _).trans ?_)
    exact run_bind_of_eq (run_optional_of_none (run_closed_of_next _ hnext)) _
  | @body key bs nodes hb =>
    obtain ⟨t, us, rfl, ht, hus⟩ := tokens_eq_cons hts
    obtain ⟨ps, cs, rfl, hps, hcs⟩ := tokens_eq_append hus
    simp only [List.length_cons, List.length_append] at hlength
    have hclosed : run (do
        token .bodyStart
        let nodes ← body
        tag "endexport"
        pure nodes) (cs ++ rest) = some (nodes, rest) := by
      refine run_closed hcs fun ls close hls hlen hclose => ?_
      refine h.readsBody ls nodes (close :: rest) (hls ▸ hb) (by omega) ?_
      exact show Closes close.token from hclose ▸ closes_of_isKeywordTag (by decide)
    have hsplit : t :: (ps ++ cs) ++ rest = t :: (ps ++ (cs ++ rest)) := by simp
    rw [hsplit]
    refine @run_checked_of_ok _ _ _ _ _ _ (key, none, some nodes) _ ?_ rfl
    refine (run_bind_of_eq (run_token_of_eq ht _) _).trans
      ((run_bind_of_eq (run_exportKey hps expr) _).trans ?_)
    exact run_bind_of_eq (run_optional_of_some hclosed) _
  | empty key =>
    obtain ⟨t, us, rfl, ht, hus⟩ := tokens_eq_cons hts
    refine @run_checked_of_ok _ _ _ _ _ _ (key, none, none) _ ?_ rfl
    refine (run_bind_of_eq (run_token_of_eq ht _) _).trans
      ((run_bind_of_eq (run_exportKey hus expr) _).trans ?_)
    exact run_bind_of_eq (run_optional_of_none (run_closed_of_next _ hnext)) _

theorem run_rawText {l : Lexeme} {text : String} (h : l.token = .raw text) (ls : List Lexeme) :
    run rawText (l :: ls) = some (text, ls) := by
  unfold rawText
  rw [run_select_cons, h]
  rfl

theorem run_exportTag_of_ne {l : Lexeme} (h : l.token ≠ .tag "export") (ls : List Lexeme) :
    run (exportTag expr body) (l :: ls) = none := by
  unfold exportTag
  exact run_checked_of_none (run_bind_of_none (run_token_of_ne h ls) _)

theorem Parts.run_extendItem (h : Parts bound expr body) :
    Complete (extendItem expr body) (SpellsItem SpellsNamed) (bound + 1) (· ≠ .bodyStart) := by
  intro us item rest hspells hlength hnext
  unfold extendItem
  rw [run_choice_cons]
  generalize hts : tokens us = ts at hspells
  cases hspells with
  | @blank text hblank =>
    obtain ⟨l, rfl, hl⟩ := tokens_eq_singleton hts
    have hexport : run (exportTag expr body) (l :: rest) = none := by
      refine run_exportTag_of_ne ?_ rest
      rw [hl]
      exact Token.noConfusion
    have htext : run (checked rawText fun text =>
        if Text.allBlank text then .ok none else .error .textInExtend) (l :: rest) =
          some ((none : Option Export), rest) :=
      run_checked_of_ok (run_rawText hl rest) (if_pos hblank)
    exact (congrArg (Option.or · _) (run_bind_of_none hexport _)).trans htext
  | block hblock =>
    rw [← hts] at hblock
    have hread := h.run_exportTag us _ rest hblock hlength hnext
    exact congrArg (Option.or · _) (run_bind_of_eq hread _)

theorem starts_item : Starts (SpellsItem SpellsNamed) (· ≠ .bodyStart) := by
  intro ts item h
  cases h with
  | blank => exact ⟨_, _, rfl, Token.noConfusion⟩
  | block h =>
    cases h with
    | value => exact ⟨_, _, rfl, Token.noConfusion⟩
    | body => exact ⟨_, _, rfl, Token.noConfusion⟩
    | empty => exact ⟨_, _, rfl, Token.noConfusion⟩

theorem Parts.run_loop (h : Parts bound expr body) {us rest : List Lexeme} {name : String}
    {es ts : List Token} {e : Expr} {nodes : List Node} (he : SpellsExpr es e) (hb : SpellsNamed ts nodes)
    (hus : tokens us = .tag "for" :: (inParens (.param (.ident name) :: .param .in :: es) ++
      .bodyStart :: (ts ++ [.tag "endfor"]))) (hlength : us.length < bound + 1) :
    run (loop expr body) (us ++ rest) = some (.loop name e nodes, rest) := by
  obtain ⟨t, us, rfl, ht, hus⟩ := tokens_eq_cons hus
  obtain ⟨ps, cs, rfl, hps, hcs⟩ := tokens_eq_append hus
  simp only [List.length_cons, List.length_append] at hlength
  have hhead : run (inParams do
      let name ← ident
      symbol .in
      let collection ← expr
      pure (name, collection)) (ps ++ (cs ++ rest)) = some ((name, e), cs ++ rest) := by
    refine Grammar.run_inParams hps fun ls close hls hlen hclose => ?_
    obtain ⟨n, ns, rfl, hn, hns⟩ := tokens_eq_cons hls
    obtain ⟨i, es, rfl, hi, rfl⟩ := tokens_eq_cons hns
    simp only [List.length_cons] at hlen
    have hread := h.readsExpr es e (close :: (cs ++ rest)) he (by omega) (.inl hclose)
    refine (run_bind_of_eq (run_ident hn _) _).trans ((run_bind_of_eq (run_token_of_eq hi _) _).trans ?_)
    exact run_bind_of_eq hread _
  obtain ⟨o, os, rfl, ho, hos⟩ := tokens_eq_cons hcs
  obtain ⟨bs, fs, rfl, rfl, hfs⟩ := tokens_eq_append hos
  obtain ⟨f, rfl, hf⟩ := tokens_eq_singleton hfs
  simp only [List.length_cons, List.length_append] at hlength
  have hbody : run body (bs ++ f :: rest) = some (nodes, f :: rest) := by
    refine h.readsBody bs nodes (f :: rest) hb (by omega) ?_
    exact show Closes f.token from hf ▸ closes_of_isKeywordTag (by decide)
  have hsplit : t :: (ps ++ o :: (bs ++ [f])) ++ rest = t :: (ps ++ (o :: (bs ++ [f]) ++ rest)) := by simp
  have hrest : o :: (bs ++ [f]) ++ rest = o :: (bs ++ f :: rest) := by simp
  rw [hsplit]
  refine (run_bind_of_eq (run_token_of_eq ht _) _).trans ((run_bind_of_eq hhead _).trans ?_)
  rw [hrest]
  refine (run_bind_of_eq (run_token_of_eq ho _) _).trans ((run_bind_of_eq hbody _).trans ?_)
  exact run_bind_of_eq (run_token_of_eq hf rest) _

theorem run_branch_of_next {name : String} {ts : List Lexeme} (h : Next (· ≠ .tag name) ts) :
    run (branch expr body name) ts = none :=
  run_bind_of_none (run_token_of_next h) _

theorem run_otherwise_of_next {ts : List Lexeme} (h : Next (· ≠ .tag "else") ts) :
    run (otherwise body) ts = none :=
  run_bind_of_none (run_token_of_next h) _

theorem starts_branch {R : List Token → List Node → Prop} (name : String) :
    Starts (SpellsBranch R name) fun t => t = .tag name := by
  intro ts branch h
  cases h with
  | intro => exact ⟨_, _, rfl, rfl⟩

theorem Parts.run_conditional (h : Parts bound expr body) {us rest : List Lexeme} {ts ws vs : List Token}
    {first : Option Expr × List Node} {others last : List (Option Expr × List Node)}
    (hf : SpellsBranch SpellsNamed "if" ts first)
    (ho : Each (SpellsBranch SpellsNamed "elseif") ws others) (hl : SpellsLast SpellsNamed vs last)
    (hus : tokens us = ts ++ (ws ++ (vs ++ [.tag "endif"]))) (hlength : us.length < bound + 1) :
    run (conditional (bound + 1) expr body) (us ++ rest) =
      some (.conditional (first :: others ++ last), rest) := by
  obtain ⟨fs, gs, rfl, rfl, hgs⟩ := tokens_eq_append hus
  obtain ⟨os, rs, rfl, rfl, hrs⟩ := tokens_eq_append hgs
  obtain ⟨ls, cs, rfl, rfl, hcs⟩ := tokens_eq_append hrs
  obtain ⟨c, rfl, hc⟩ := tokens_eq_singleton hcs
  simp only [List.length_cons, List.length_append] at hlength
  have hend : Closes c.token := hc ▸ closes_of_isKeywordTag (by decide)
  -- what follows the branches with a condition begins with `else` or with `endif`
  have hlast : ∃ found : Option (Option Expr × List Node), found.toList = last ∧
      run (optional (otherwise body)) (ls ++ c :: rest) = some (found, c :: rest) ∧
        Next (fun t => Closes t ∧ t ≠ .tag "elseif") (ls ++ c :: rest) := by
    have helse : Closes (.tag "else") ∧ Token.tag "else" ≠ .tag "elseif" :=
      ⟨closes_of_isKeywordTag (by decide), by decide⟩
    generalize hvs : tokens ls = vs at hl
    cases hl with
    | absent =>
      obtain rfl : ls = [] := List.map_eq_nil_iff.1 hvs
      refine ⟨none, rfl, run_optional_of_none (run_otherwise_of_next ?_), hend, ?_⟩
      · exact show c.token ≠ _ from hc ▸ (by decide)
      · exact hc ▸ (by decide)
    | @colon bs nodes hb =>
      have hread := h.run_otherwise (hvs ▸ SpellsLast.colon hb) (by omega)
        (show Next Closes (c :: rest) from hend)
      refine ⟨some (none, nodes), rfl, run_optional_of_some hread, ?_⟩
      obtain ⟨l, ls, rfl, hl, -⟩ := tokens_eq_cons hvs
      exact show Closes l.token ∧ l.token ≠ _ from hl ▸ helse
    | @bare bs nodes hb =>
      have hread := h.run_otherwise (hvs ▸ SpellsLast.bare hb) (by omega)
        (show Next Closes (c :: rest) from hend)
      refine ⟨some (none, nodes), rfl, run_optional_of_some hread, ?_⟩
      obtain ⟨l, ls, rfl, hl, -⟩ := tokens_eq_cons hvs
      exact show Closes l.token ∧ l.token ≠ _ from hl ▸ helse
  obtain ⟨found, rfl, hlast, hnext⟩ := hlast
  have hstarts : Starts (SpellsBranch SpellsNamed "elseif") Closes :=
    fun us branch hb => let ⟨t, vs, ht, hname⟩ := starts_branch "elseif" us branch hb
      ⟨t, vs, ht, "elseif", hname, .inr rfl⟩
  have hclose : Next Closes (ls ++ c :: rest) := hnext.mono fun _ ht => ht.1
  have hfirst : run (branch expr body "if") (fs ++ (os ++ (ls ++ c :: rest))) =
      some (first, os ++ (ls ++ c :: rest)) :=
    h.run_branch "if" fs first _ hf (by omega) (hstarts.next_each ho hclose)
  have hothers := (h.run_branch "elseif").many hstarts ho (by omega) hclose
    (run_branch_of_next (hnext.mono fun _ ht => ht.2)) (show os.length ≤ bound + 1 by omega)
  have hsplit : fs ++ (os ++ (ls ++ [c])) ++ rest = fs ++ (os ++ (ls ++ c :: rest)) := by simp
  rw [hsplit]
  refine (run_bind_of_eq hfirst _).trans ((run_bind_of_eq hothers _).trans ?_)
  exact (run_bind_of_eq hlast _).trans (run_bind_of_eq (run_token_of_eq hc rest) _)

theorem run_rawText_of_tag {ts : List Lexeme} {name : String} (h : Next (· = .tag name) ts) :
    run rawText ts = none := by
  cases ts with
  | nil => rfl
  | cons l ls =>
    unfold rawText
    rw [run_select_cons, show l.token = .tag name from h]
    rfl

theorem run_tag_of_ne {ts : List Lexeme} {name other : String} (h : Next (· = .tag name) ts)
    (hne : name ≠ other) : run (tag other) ts = none :=
  run_token_of_next (h.mono fun _ ht he => hne (Token.tag.inj (ht.symm.trans he)))

theorem next_append {us rest : List Lexeme} {t : Token} {ts : List Token} (h : tokens us = t :: ts) :
    Next (· = t) (us ++ rest) := by
  obtain ⟨l, ls, rfl, hl, -⟩ := tokens_eq_cons h
  exact hl

theorem Parts.run_extendWith (h : Parts bound expr body) {us rest : List Lexeme} {template : String}
    {ts : List Token} {items : List (Option Export)}
    (hitems : Each (SpellsItem SpellsNamed) ts items)
    (hus : tokens us = .tag "extend" :: (inParens [.param (.text template)] ++
      .bodyStart :: (ts ++ [.tag "endextend"]))) (hlength : us.length < bound + 1) :
    run (extend (bound + 1) expr body) (us ++ rest) =
      some (.extend template (Table.ofKeyed (items.filterMap id)), rest) := by
  obtain ⟨t, us, rfl, ht, hus⟩ := tokens_eq_cons hus
  obtain ⟨ps, cs, rfl, hps, hcs⟩ := tokens_eq_append hus
  simp only [List.length_cons, List.length_append] at hlength
  have hclosed : run (do
      token .bodyStart
      let items ← many (bound + 1) (extendItem expr body)
      tag "endextend"
      pure items) (cs ++ rest) = some (items, rest) := by
    refine run_closed hcs fun ls close hls hlen hclose => ?_
    have hnext : Next (· = .tag "endextend") (close :: rest) := hclose
    have hexport : run (exportTag expr body) (close :: rest) = none :=
      run_checked_of_none (run_bind_of_none (run_tag_of_ne hnext (by decide)) _)
    have hitem : run (extendItem expr body) (close :: rest) = none := by
      refine (run_choice_of_none (run_bind_of_none hexport _) _).trans ?_
      exact run_checked_of_none (run_rawText_of_tag hnext)
    have hstart : Next (· ≠ .bodyStart) (close :: rest) :=
      hnext.mono fun t ht => ht ▸ Token.noConfusion
    exact h.run_extendItem.many starts_item (hls ▸ hitems) (by omega) hstart hitem (by omega)
  have hsplit : t :: (ps ++ cs) ++ rest = t :: (ps ++ (cs ++ rest)) := by simp
  rw [hsplit]
  refine (run_bind_of_eq (run_token_of_eq ht _) _).trans ((run_bind_of_eq (run_inParams_text hps) _).trans ?_)
  exact run_bind_of_eq (run_optional_of_some hclosed) _

theorem run_extend {us rest : List Lexeme} {template : String}
    (hus : tokens us = .tag "extend" :: inParens [.param (.text template)])
    (hnext : Next (· ≠ .bodyStart) rest) (bound : Nat) (expr : Reader Expr) (body : Reader (List Node)) :
    run (extend bound expr body) (us ++ rest) = some (.extend template [], rest) := by
  obtain ⟨t, us, rfl, ht, hps⟩ := tokens_eq_cons hus
  refine (run_bind_of_eq (run_token_of_eq ht _) _).trans ((run_bind_of_eq (run_inParams_text hps) _).trans ?_)
  exact run_bind_of_eq (run_optional_of_none (run_closed_of_next "endextend" hnext)) _

theorem run_importTag {us rest : List Lexeme} {key : String}
    (hus : tokens us = .tag "import" :: inParens [.param (.text key)]) :
    run importTag (us ++ rest) = some (.importing key, rest) := by
  obtain ⟨t, us, rfl, ht, hps⟩ := tokens_eq_cons hus
  exact (run_bind_of_eq (run_token_of_eq ht _) _).trans (run_bind_of_eq (run_inParams_text hps) _)

theorem run_customName {l : Lexeme} {name : String} (hl : l.token = .tag name)
    (hname : isReserved name = false) (ls : List Lexeme) : run customName (l :: ls) = some (name, ls) := by
  unfold customName
  rw [run_select_cons, hl]
  dsimp only
  rw [hname]
  rfl

theorem run_anyTag {l : Lexeme} {name : String} (hl : l.token = .tag name) (ls : List Lexeme) :
    run anyTag (l :: ls) = some (name, ls) := by
  unfold anyTag
  rw [run_select_cons, hl]
  rfl

theorem Parts.run_custom (h : Parts bound expr body) {us rest : List Lexeme} {name : String}
    {params : List (List Token × Expr)} (hname : isReserved name = false)
    (hp : ∀ param ∈ params, SpellsExpr param.1 param.2)
    (hus : tokens us = .tag name :: inParens ([.param .comma].intercalate (params.map Prod.fst)))
    (hlength : us.length < bound + 1) (hnext : Next (· ≠ .bodyStart) rest) :
    run (custom (bound + 1) expr body) (us ++ rest) =
      some (.custom name (params.map Prod.snd) none, rest) := by
  obtain ⟨t, us, rfl, ht, hps⟩ := tokens_eq_cons hus
  simp only [List.length_cons] at hlength
  have hparams := @Parts.run_params _ _ _ h us rest params hp hps (by omega)
  unfold custom
  refine @run_checked_of_ok _ _ _ _ _ _ (name, params.map Prod.snd, none) _ ?_ rfl
  refine (run_bind_of_eq (run_customName ht hname _) _).trans ((run_bind_of_eq hparams _).trans ?_)
  exact run_bind_of_eq (run_optional_of_none (run_bind_of_none (run_token_of_next hnext) _)) _

theorem Parts.run_customWith (h : Parts bound expr body) {us rest : List Lexeme} {name : String}
    {params : List (List Token × Expr)} {ts : List Token} {nodes : List Node}
    (hname : isReserved name = false) (hne : name ≠ "")
    (hp : ∀ param ∈ params, SpellsExpr param.1 param.2) (hb : SpellsNamed ts nodes)
    (hus : tokens us = .tag name :: (inParens ([.param .comma].intercalate (params.map Prod.fst)) ++
      .bodyStart :: (ts ++ [.tag ("end" ++ name)]))) (hlength : us.length < bound + 1) :
    run (custom (bound + 1) expr body) (us ++ rest) =
      some (.custom name (params.map Prod.snd) (some nodes), rest) := by
  obtain ⟨t, us, rfl, ht, hus⟩ := tokens_eq_cons hus
  obtain ⟨ps, cs, rfl, hps, hcs⟩ := tokens_eq_append hus
  simp only [List.length_cons, List.length_append] at hlength
  have hparams := @Parts.run_params _ _ _ h ps (cs ++ rest) params hp hps (by omega)
  obtain ⟨o, os, rfl, ho, hos⟩ := tokens_eq_cons hcs
  obtain ⟨bs, fs, rfl, rfl, hfs⟩ := tokens_eq_append hos
  obtain ⟨f, rfl, hf⟩ := tokens_eq_singleton hfs
  simp only [List.length_cons, List.length_append] at hlength
  have hbody : run body (bs ++ f :: rest) = some (nodes, f :: rest) := by
    refine h.readsBody bs nodes (f :: rest) hb (by omega) ?_
    exact show Closes f.token from hf ▸ closes_end hne
  have hclosed : run (do
      token .bodyStart
      let nodes ← body
      let closing ← anyTag
      pure (nodes, closing)) (o :: (bs ++ f :: rest)) = some ((nodes, "end" ++ name), rest) :=
    (run_bind_of_eq (run_token_of_eq ho _) _).trans
      ((run_bind_of_eq hbody _).trans (run_bind_of_eq (run_anyTag hf rest) _))
  have hsplit : t :: (ps ++ o :: (bs ++ [f])) ++ rest = t :: (ps ++ (o :: (bs ++ [f]) ++ rest)) := by simp
  have hrest : o :: (bs ++ [f]) ++ rest = o :: (bs ++ f :: rest) := by simp
  rw [hsplit]
  unfold custom
  refine @run_checked_of_ok _ _ _ _ _ _
    (name, params.map Prod.snd, some (nodes, "end" ++ name)) _ ?_ (if_pos rfl)
  refine (run_bind_of_eq (run_customName ht hname _) _).trans ((run_bind_of_eq hparams _).trans ?_)
  rw [hrest]
  exact run_bind_of_eq (run_optional_of_some hclosed) _

theorem run_nodeWith_of_tag {ts : List Lexeme} {name : String} (h : Next (· = .tag name) ts) :
    run (nodeWith bound expr body) ts = run (choice
      [loop expr body, conditional bound expr body, extend bound expr body,
       do let (key, nodes) ← exportTag expr body
          pure (.exporting key nodes),
       importTag, custom bound expr body]) ts := by
  have hraw : run raw ts = none := run_bind_of_none (run_rawText_of_tag h) _
  have hparen : run (expressionTag expr) ts = none :=
    run_bind_of_none (run_bind_of_none
      (run_token_of_next (h.mono fun _ ht => ht ▸ Token.noConfusion)) _) _
  exact (run_choice_of_none hraw _).trans (run_choice_of_none hparen _)

theorem run_loop_of_ne {ts : List Lexeme} {name : String} (h : Next (· = .tag name) ts)
    (hne : name ≠ "for") : run (loop expr body) ts = none :=
  run_bind_of_none (run_tag_of_ne h hne) _

theorem run_conditional_of_ne {ts : List Lexeme} {name : String} (h : Next (· = .tag name) ts)
    (hne : name ≠ "if") : run (conditional bound expr body) ts = none :=
  run_bind_of_none (run_bind_of_none (run_tag_of_ne h hne) _) _

theorem run_extend_of_ne {ts : List Lexeme} {name : String} (h : Next (· = .tag name) ts)
    (hne : name ≠ "extend") : run (extend bound expr body) ts = none :=
  run_bind_of_none (run_tag_of_ne h hne) _

theorem run_exporting_of_ne {ts : List Lexeme} {name : String} (h : Next (· = .tag name) ts)
    (hne : name ≠ "export") :
    run (do
      let (key, nodes) ← exportTag expr body
      pure (Node.exporting key nodes)) ts = none :=
  run_bind_of_none (run_checked_of_none (run_bind_of_none (run_tag_of_ne h hne) _)) _

theorem run_importTag_of_ne {ts : List Lexeme} {name : String} (h : Next (· = .tag name) ts)
    (hne : name ≠ "import") : run importTag ts = none :=
  run_bind_of_none (run_tag_of_ne h hne) _

theorem run_nodeWith_of_custom {ts : List Lexeme} {name : String} (h : Next (· = .tag name) ts)
    (hname : isReserved name = false) :
    run (nodeWith bound expr body) ts = run (custom bound expr body) ts := by
  have hne : ∀ other, isReserved other = true → name ≠ other := fun _ => ne_of_isReserved hname
  refine (run_nodeWith_of_tag h).trans ?_
  refine (run_choice_of_none (run_loop_of_ne h (hne _ (by decide))) _).trans ?_
  refine (run_choice_of_none (run_conditional_of_ne h (hne _ (by decide))) _).trans ?_
  refine (run_choice_of_none (run_extend_of_ne h (hne _ (by decide))) _).trans ?_
  refine (run_choice_of_none (run_exporting_of_ne h (hne _ (by decide))) _).trans ?_
  exact run_choice_of_none (run_importTag_of_ne h (hne _ (by decide))) _

theorem Parts.complete_nodeWith (h : Parts bound expr body) :
    Complete (nodeWith (bound + 1) expr body) SpellsNamedNode (bound + 1) (· ≠ .bodyStart) := by
  rintro us node rest ⟨hnamed, hspells⟩ hlength hnext
  generalize hts : tokens us = ts at hspells hnamed
  cases hspells with
  | raw text =>
    obtain ⟨l, rfl, hl⟩ := tokens_eq_singleton hts
    exact run_choice_of_some (run_bind_of_eq (run_rawText hl rest) _) _
  | expression he =>
    have hraw : run raw (us ++ rest) = none := by
      obtain ⟨l, ls, rfl, hl, -⟩ := tokens_eq_cons hts
      refine run_bind_of_none ?_ _
      unfold rawText
      rw [List.cons_append, run_select_cons, hl]
      rfl
    have hread := @Parts.run_inParams _ _ _ h us rest _ _ hts he (by omega)
    refine (run_choice_of_none hraw _).trans (run_choice_of_some ?_ _)
    exact run_bind_of_eq hread _
  | loop name he hb =>
    have hbody : SpellsNamed _ _ := ⟨by simp_all, hb⟩
    refine (run_nodeWith_of_tag (next_append hts)).trans (run_choice_of_some ?_ _)
    exact h.run_loop he hbody hts hlength
  | conditional hf ho hl =>
    simp only [List.mem_append, not_or] at hnamed
    obtain ⟨hnf, hno, hnl, -⟩ := hnamed
    have hothers := (ho.notMem hno).mono fun _ _ hb => hb.2.named hb.1
    have hread := @Parts.run_conditional _ _ _ h us rest _ _ _ _ _ _ (hf.named hnf) hothers
      (hl.named hnl) hts hlength
    have htag : Next (· = .tag "if") (us ++ rest) := by
      cases hf with
      | intro => exact next_append hts
    refine (run_nodeWith_of_tag htag).trans ?_
    exact (run_choice_of_none (run_loop_of_ne htag (by decide)) _).trans (run_choice_of_some hread _)
  | extend template =>
    have htag := @next_append us rest _ _ hts
    refine (run_nodeWith_of_tag htag).trans ?_
    refine (run_choice_of_none (run_loop_of_ne htag (by decide)) _).trans ?_
    refine (run_choice_of_none (run_conditional_of_ne htag (by decide)) _).trans (run_choice_of_some ?_ _)
    exact run_extend hts hnext _ _ _
  | extendWith template hitems =>
    have htag := @next_append us rest _ _ hts
    have hitems := (hitems.notMem (by simp_all)).mono fun _ _ hb => hb.2.named hb.1
    refine (run_nodeWith_of_tag htag).trans ?_
    refine (run_choice_of_none (run_loop_of_ne htag (by decide)) _).trans ?_
    refine (run_choice_of_none (run_conditional_of_ne htag (by decide)) _).trans (run_choice_of_some ?_ _)
    exact h.run_extendWith hitems hts hlength
  | exporting hblock =>
    have htag : Next (· = .tag "export") (us ++ rest) := by
      cases hblock with
      | value => exact next_append hts
      | body => exact next_append hts
      | empty => exact next_append hts
    have hread := h.run_exportTag us _ rest (hts ▸ hblock.named hnamed) hlength hnext
    refine (run_nodeWith_of_tag htag).trans ?_
    refine (run_choice_of_none (run_loop_of_ne htag (by decide)) _).trans ?_
    refine (run_choice_of_none (run_conditional_of_ne htag (by decide)) _).trans ?_
    refine (run_choice_of_none (run_extend_of_ne htag (by decide)) _).trans (run_choice_of_some ?_ _)
    exact run_bind_of_eq hread _
  | importing key =>
    have htag := @next_append us rest _ _ hts
    refine (run_nodeWith_of_tag htag).trans ?_
    refine (run_choice_of_none (run_loop_of_ne htag (by decide)) _).trans ?_
    refine (run_choice_of_none (run_conditional_of_ne htag (by decide)) _).trans ?_
    refine (run_choice_of_none (run_extend_of_ne htag (by decide)) _).trans ?_
    refine (run_choice_of_none (run_exporting_of_ne htag (by decide)) _).trans (run_choice_of_some ?_ _)
    exact run_importTag hts
  | custom hname hp =>
    refine (run_nodeWith_of_custom (next_append hts) hname).trans ?_
    exact h.run_custom hname hp hts hlength hnext
  | @customWith name hname params hp bs nodes hb =>
    have hne : name ≠ "" := by
      rintro rfl
      exact hnamed List.mem_cons_self
    have hbody : SpellsNamed bs nodes := ⟨by simp_all, hb⟩
    refine (run_nodeWith_of_custom (next_append hts) hname).trans ?_
    exact h.run_customWith hname hne hp hbody hts hlength

theorem complete_node (bound : Nat) : Complete (node bound) SpellsNamedNode bound (· ≠ .bodyStart) := by
  induction bound with
  | zero => exact fun us node rest _ hlength => absurd hlength (Nat.not_lt_zero _)
  | succ bound ih =>
    have hexpr : Complete (Grammar.expression (bound + 1)) SpellsExpr bound
        fun t => t = .paramsClose ∨ t = .param .comma := by
      refine (complete_expression (bound + 1)).mono (fun _ _ => spellsExpr_iff.1) (Nat.le_succ _) ?_
      rintro t (rfl | rfl)
      · exact not_continues_paramsClose 7
      · exact not_continues_comma 7
    have hbody : Complete (many (bound + 1) (node bound)) SpellsNamed bound Closes := by
      intro us nodes rest h hlength hrest
      have hstop : run (node bound) rest = none :=
        (sound_node bound).eq_none starts_node (hrest.mono fun _ ht hstart => hstart.2 ht)
      exact ih.many starts_namedNode h.each hlength (hrest.mono fun _ ht => ht.ne_bodyStart) hstop (by omega)
    exact Parts.complete_nodeWith
      ⟨hexpr, (sound_expression _).mono fun _ _ => spellsExpr_iff.2, hbody⟩

end Complete

/-! ### Templates -/

theorem readNodes_of_spells {ts : List Lexeme} {nodes : List Node} (h : Spells (tokens ts) nodes)
    (hnamed : .tag "" ∉ tokens ts) : (readNodes ts).result = some (nodes, []) := by
  have hstop : run (node (ts.length + 1)) [] = none := (sound_node _).eq_none starts_node trivial
  have hread := (complete_node (ts.length + 1)).many starts_namedNode (h.notMem hnamed)
    (Nat.lt_succ_self _) (show Next (· ≠ .bodyStart) [] from trivial) hstop (Nat.le_succ _)
  rw [List.append_nil] at hread
  exact run_bind_of_eq hread _

/-- Tokens that spell nodes spell no others, unless a tag without a name is among them. -/
theorem Spells.unique {ts : List Token} {nodes others : List Node} (hnodes : Spells ts nodes)
    (hothers : Spells ts others) (hnamed : .tag "" ∉ ts) : nodes = others := by
  obtain ⟨ls, rfl⟩ := exists_tokens_eq ts
  have hread := readNodes_of_spells hnodes hnamed
  rw [readNodes_of_spells hothers hnamed] at hread
  exact (Prod.mk.inj (Option.some.inj hread)).1.symm

/-- A text is read to some nodes exactly if its tokens spell them. -/
theorem parse_eq_ok_iff {source : String} {nodes : List Node} :
    parse source = .ok nodes ↔ ∃ ts, Lexer.scan .text source.toList = some ts ∧ Spells ts nodes := by
  constructor
  · intro h
    unfold parse at h
    cases hlex : lex source with
    | error problem => rw [hlex] at h; cases h
    | ok ls =>
      rw [hlex] at h
      dsimp only [bind, Except.bind] at h
      split at h
      · next read rest hread =>
        obtain rfl := Except.ok.inj h
        exact ⟨tokens ls, Lexer.scan_of_lex hlex, (spells_of_readNodes hread).2⟩
      · cases h
  · rintro ⟨ts, hscan, hspells⟩
    obtain ⟨ls, hlex, rfl⟩ := Lexer.lex_of_scan hscan
    have hread := readNodes_of_spells hspells (Lexer.stream_of_scan hscan).notMem_nameless
    unfold parse
    rw [hlex]
    dsimp only [bind, Except.bind]
    rw [hread]
    rfl

/-- The reader of templates accepts exactly what is spelled, and what is spelled is spelled in one way:
for all tokens among which every tag has a name, and so for those of every text. What it accepts is
spelled whatever the tokens are. -/
theorem readNodes_eq_some_iff_spells :
    (∀ (ts : List Lexeme) (nodes : List Node), .tag "" ∉ tokens ts →
      ((∃ rest, (readNodes ts).result = some (nodes, rest)) ↔ Spells (tokens ts) nodes)) ∧
    (∀ (ts : List Token) (nodes others : List Node), .tag "" ∉ ts →
      Spells ts nodes → Spells ts others → nodes = others) ∧
    (∀ (ts : List Lexeme) (nodes : List Node) (rest : List Lexeme),
      (readNodes ts).result = some (nodes, rest) → rest = [] ∧ Spells (tokens ts) nodes) ∧
    ∀ (source : String) (ts : List Lexeme), lex source = .ok ts → .tag "" ∉ tokens ts := by
  refine ⟨fun ts nodes hnamed => ⟨?_, ?_⟩, fun ts nodes others hnamed h h' => h.unique h' hnamed,
    fun ts nodes rest => spells_of_readNodes, fun source ts hlex => ?_⟩
  · rintro ⟨rest, hread⟩
    exact (spells_of_readNodes hread).2
  · intro hspells
    exact ⟨[], readNodes_of_spells hspells hnamed⟩
  · exact (Lexer.stream_of_scan (Lexer.scan_of_lex hlex)).notMem_nameless

/-- An extend with blanks between two blocks under one key, of which the later is a tag with a body. -/
theorem spells_extend_with_blocks :
    let ts : List Token :=
      [.tag "extend", .paramsOpen, .param (.text "page"), .paramsClose, .bodyStart, .raw " ",
       .tag "export", .paramsOpen, .param (.text "k"), .param .comma, .param (.int 1), .paramsClose,
       .tag "export", .paramsOpen, .param (.text "k"), .paramsClose, .bodyStart,
       .tag "card", .paramsOpen, .paramsClose, .bodyStart, .raw "x", .tag "endcard",
       .tag "endexport", .raw "\n", .tag "endextend"]
    Spells ts [.extend "page" [("k", "k", [.custom "card" [] (some [.raw "x"])])]] ∧
      ∀ others, Spells ts others → others = [.extend "page" [("k", "k", [.custom "card" [] (some [.raw "x"])])]] := by
  intro ts
  obtain ⟨ls, hls⟩ : ∃ ls : List Lexeme, ls = ts.map fun t => ⟨t, ⟨0, 0⟩⟩ := ⟨_, rfl⟩
  have htokens : tokens ls = ts := by rw [hls]; rfl
  have hnamed : .tag "" ∉ ts := by decide
  have hread : (readNodes ls).result =
      some ([.extend "page" [("k", "k", [.custom "card" [] (some [.raw "x"])])]], []) := by
    rw [hls]
    rfl
  have hspells := (readNodes_eq_some_iff_spells.1 ls _ (htokens.symm ▸ hnamed)).1 ⟨[], hread⟩
  rw [htokens] at hspells
  exact ⟨hspells, fun others h => readNodes_eq_some_iff_spells.2.1 ts _ _ hnamed h hspells⟩

/-- Tokens with a tag that has no name: what would close it, `end`, is the name of a tag like any other. -/
def namelessTokens : List Token :=
  [.tag "", .paramsOpen, .paramsClose, .bodyStart,
   .tag "end", .paramsOpen, .param (.int 1), .paramsClose,
   .tag "end", .paramsOpen, .param (.int 2), .paramsClose]

def closedAtOnce : List Node :=
  [.custom "" [] (some []), .expression (.literal (.int 1)), .custom "end" [.literal (.int 2)] none]

def closedBehind : List Node :=
  [.custom "" [] (some [.custom "end" [.literal (.int 1)] none]), .expression (.literal (.int 2))]

/-- They spell two lists of nodes, and yet are refused: the body takes both tags that could close it. -/
theorem namelessTokens_spelled_twice :
    Spells namelessTokens closedAtOnce ∧ Spells namelessTokens closedBehind ∧ closedAtOnce ≠ closedBehind ∧
      (readNodes (namelessTokens.map (⟨·, ⟨0, 0⟩⟩))).result = none := by
  have hint : ∀ n, SpellsExpr [.param (.int n)] (.literal (.int n)) := fun n =>
    spellsExpr_iff.2 ((SpellsAt.operand (.literal (.int n))).lift (Nat.zero_le 6) (by decide))
  have hend : ∀ n, SpellsNode [.tag "end", .paramsOpen, .param (.int n), .paramsClose]
      (.custom "end" [.literal (.int n)] none) := fun n =>
    @SpellsNode.custom "end" (by decide) [([.param (.int n)], .literal (.int n))]
      (fun param hm => by rw [List.mem_singleton.1 hm]; exact hint n)
  have hnameless : ∀ {ts : List Token} {nodes : List Node}, Spells ts nodes →
      SpellsNode (.tag "" :: .paramsOpen :: .paramsClose :: .bodyStart :: (ts ++ [.tag "end"]))
        (.custom "" [] (some nodes)) := fun hb =>
    @SpellsNode.customWith "" (by decide) [] (fun _ hm => absurd hm List.not_mem_nil) _ _ hb
  have hatOnce : Spells namelessTokens closedAtOnce :=
    .cons (hnameless .nil) (.cons (SpellsNode.expression (hint 1)) (.cons (hend 2) .nil))
  have hbehind : Spells namelessTokens closedBehind :=
    .cons (hnameless (.cons (hend 1) .nil)) (.cons (SpellsNode.expression (hint 2)) .nil)
  exact ⟨hatOnce, hbehind, by simp [closedAtOnce, closedBehind], rfl⟩

end Grammar

end Templating
