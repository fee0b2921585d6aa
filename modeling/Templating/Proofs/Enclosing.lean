import Templating.Proofs.Acceptance
import Templating.Proofs.Inlining

/-!
# What nodes enclose

The bodies of a node have tokens of their own among those of the node, with one more behind them, or are no
more than a value. So what tokens say of a body they say of the bodies at every depth. Blocks that are read
stand under their own keys.
-/

namespace Templating

namespace Grammar

open Node

/-! ### The tokens of bodies -/

/-- The tokens of a body stand among others, with one behind them. -/
def Encloses (ts : List Token) (body : List Node) : Prop := ∃ us u, Spells us body ∧ us ++ [u] <:+: ts

theorem Encloses.mono {ts us : List Token} {body : List Node} (h : Encloses us body) (hus : us <:+: ts) :
    Encloses ts body := by
  obtain ⟨vs, v, hvs, hin⟩ := h
  exact ⟨vs, v, hvs, hin.trans hus⟩

theorem encloses_append {ts us vs : List Token} {body : List Node} (h : Spells us body) (hus : us <:+: ts)
    (v : Token) : Encloses (ts ++ v :: vs) body := by
  obtain ⟨before, after, rfl⟩ := hus
  cases after with
  | nil => exact ⟨us, v, h, before, vs, by simp⟩
  | cons t after => exact ⟨us, t, h, before, after ++ v :: vs, by simp⟩

theorem encloses_body {us : List Token} {body : List Node} (h : Spells us body) (before : List Token)
    (closing : Token) : Encloses (before ++ .bodyStart :: (us ++ [closing])) body :=
  ⟨us, closing, h, before ++ [.bodyStart], [], by simp⟩

theorem SpellsBranch.exists_tokens {name : String} {ts : List Token} {branch : Option Expr × List Node}
    (h : SpellsBranch Spells name ts branch) : ∃ us, Spells us branch.2 ∧ us <:+: ts := by
  cases h with
  | @intro es us e nodes _ hb => exact ⟨us, hb, .tag name :: (inParens es ++ [.bodyStart]), [], by simp⟩

theorem SpellsLast.exists_tokens {ts : List Token} {last : List (Option Expr × List Node)}
    (h : SpellsLast Spells ts last) {branch : Option Expr × List Node} (hbranch : branch ∈ last) :
    ∃ us, Spells us branch.2 ∧ us <:+: ts := by
  cases h with
  | absent => cases hbranch
  | colon hb =>
    obtain rfl := List.mem_singleton.1 hbranch
    exact ⟨_, hb, [.tag "else", .bodyStart], [], List.append_nil _⟩
  | bare hb =>
    obtain rfl := List.mem_singleton.1 hbranch
    exact ⟨_, hb, [.tag "else"], [], List.append_nil _⟩

theorem SpellsBlock.encloses {ts : List Token} {block : Export}
    (h : SpellsBlock Spells ts block) :
    Encloses ts block.2 ∨ block.2 = [] ∨ ∃ e, block.2 = [.expression e] := by
  cases h with
  | value key _ => exact .inr (.inr ⟨_, rfl⟩)
  | body key hb => exact .inl (encloses_body hb (.tag "export" :: inParens [.param (.text key)]) _)
  | empty key => exact .inr (.inl rfl)

/-- Where the body of a node comes from: there are tokens of its own, or it is no more than a value. -/
theorem SpellsNode.encloses {ts : List Token} {node : Node} (h : SpellsNode ts node) {body : List Node}
    (hbody : body ∈ node.bodies) : Encloses ts body ∨ body = [] ∨ ∃ e, body = [.expression e] := by
  cases h with
  | raw => cases hbody
  | expression => cases hbody
  | loop name he hb =>
    obtain rfl := List.mem_singleton.1 hbody
    exact .inl (encloses_body hb (.tag "for" :: inParens _) _)
  | @conditional ts us vs first others last hf ho hl =>
    obtain ⟨branch, hbranch, rfl⟩ := List.mem_map.1 hbody
    have hin : ∃ ws, Spells ws branch.2 ∧ ws <:+: ts ++ (us ++ vs) := by
      rcases List.mem_append.1 hbranch with hbranch | hbranch
      · rcases List.mem_cons.1 hbranch with rfl | hbranch
        · obtain ⟨ws, hws, hin⟩ := hf.exists_tokens
          exact ⟨ws, hws, hin.trans (List.prefix_append _ _).isInfix⟩
        · obtain ⟨xs, hxs, hxsin⟩ := ho.exists_tokens hbranch
          obtain ⟨ws, hws, hin⟩ := hxs.exists_tokens
          exact ⟨ws, hws, (hin.trans hxsin).trans ⟨ts, vs, by simp⟩⟩
      · obtain ⟨ws, hws, hin⟩ := hl.exists_tokens hbranch
        exact ⟨ws, hws, hin.trans ⟨ts ++ us, [], by simp⟩⟩
    obtain ⟨ws, hws, hin⟩ := hin
    have hencloses := @encloses_append _ _ [] _ hws hin (.tag "endif")
    rw [List.append_assoc, List.append_assoc] at hencloses
    exact .inl hencloses
  | extend => cases hbody
  | extendWith template h =>
    obtain ⟨block, hblock, rfl⟩ := List.mem_map.1 hbody
    obtain ⟨item, hitem, rfl⟩ := List.mem_filterMap.1 (Table.mem_of_mem_ofKeyed hblock).1
    obtain ⟨us, hus, hin⟩ := h.exists_tokens hitem
    cases hus with
    | block hus =>
      refine hus.encloses.imp_left fun hencloses => hencloses.mono ?_
      exact hin.trans ⟨.tag "extend" :: (inParens [.param (.text template)] ++ [.bodyStart]),
        [.tag "endextend"], by simp⟩
  | exporting h =>
    obtain rfl := List.mem_singleton.1 hbody
    exact h.encloses
  | importing => cases hbody
  | custom => cases hbody
  | customWith hname hp hb =>
    obtain rfl := List.mem_singleton.1 hbody
    exact .inl (encloses_body hb (.tag _ :: inParens _) _)

/-- What holds of a body by its tokens and the one behind them holds in a spelled node at every depth, if it
holds of no nodes and of a value. -/
theorem throughout_bodies {T : List Token → Prop} {P : List Node → Prop}
    (hwithin : ∀ {ts us}, T ts → us <:+: ts → T us)
    (hbody : ∀ {us u body}, Spells us body → T (us ++ [u]) → P body) (hnil : P [])
    (hvalue : ∀ e, P [.expression e]) {node : Node} {ts : List Token} (h : SpellsNode ts node) (hts : T ts) :
    ∀ body ∈ node.bodies, Throughout P body := by
  induction node using induction_bodies generalizing ts with
  | step node ih =>
    intro body hm
    rcases h.encloses hm with ⟨us, u, hus, hin⟩ | rfl | ⟨e, rfl⟩
    · have hbehind : T (us ++ [u]) := hwithin hts hin
      refine .intro (hbody hus hbehind) fun n hn => ?_
      obtain ⟨vs, hvs, hvsin⟩ := hus.exists_tokens hn
      exact ih body hm n hn hvs (hwithin hbehind (hvsin.trans (List.prefix_append us [u]).isInfix))
    · exact .intro hnil fun n hn => absurd hn List.not_mem_nil
    · refine .intro (hvalue e) fun n hn => ?_
      rw [List.mem_singleton.1 hn]
      exact fun _ hbody => absurd hbody List.not_mem_nil

/-! ### Own keys -/

theorem hasOwnKeys_of_spells {ts : List Token} {node : Node} (h : SpellsNode ts node) : node.HasOwnKeys := by
  cases h with
  | extendWith => exact fun _ hblock => (Table.mem_of_mem_ofKeyed hblock).2
  | extend => exact fun _ hblock => absurd hblock List.not_mem_nil
  | _ => trivial

theorem keyed_of_spells {ts : List Token} {nodes : List Node} (h : Spells ts nodes) : Keyed nodes := by
  have hhere : ∀ {us : List Token} {body : List Node}, Spells us body → ∀ node ∈ body, node.HasOwnKeys := by
    intro us body hbody node hn
    obtain ⟨vs, hvs, -⟩ := hbody.exists_tokens hn
    exact hasOwnKeys_of_spells hvs
  refine .intro (hhere h) fun node hn => ?_
  obtain ⟨us, hus, -⟩ := h.exists_tokens hn
  exact @throughout_bodies (fun _ => True) _ (fun _ _ => trivial) (fun hbody _ => hhere hbody) nofun
    (fun _ => List.forall_mem_singleton.2 trivial) node us hus trivial

theorem keyed_of_parse {source : String} {nodes : List Node} (h : parse source = .ok nodes) : Keyed nodes := by
  obtain ⟨ts, -, hspells⟩ := parse_eq_ok_iff.1 h
  exact keyed_of_spells hspells

end Grammar

end Templating
