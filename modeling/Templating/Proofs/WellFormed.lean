import Templating.Proofs.Bookkeeping
import Templating.Proofs.Undoing

/-!
# Well-formed nodes

What every reader of nodes may rely on, at whatever depth: no raw text is empty, a conditional begins with a
condition and only its last branch may lack one, the blocks of an extend stand under their keys, and no tag
takes a reserved name. Nodes that are read are so, and rebuilding keeps them so: it changes the bodies of a node
and nothing else of it, and what it puts in place of an extend or of a block is well-formed before.
-/

namespace Templating

namespace Node

/-! ### One node -/

/-- What is asked of a node, its bodies aside. -/
def IsProper : Node → Prop
  | .raw text => text ≠ ""
  | .conditional branches =>
    (∃ first ∈ branches.head?, first.1.isSome = true) ∧ ∀ branch ∈ branches.dropLast, branch.1.isSome = true
  | .extend _ exports => Table.Sorted exports ∧ ∀ block ∈ exports, block.2.1 = block.1
  | .custom name _ _ => isReserved name = false
  | _ => True

theorem IsProper.mapBodies {node : Node} (h : node.IsProper) (f : List Node → List Node) :
    (node.mapBodies f).IsProper := by
  cases node with
  | conditional branches =>
    obtain ⟨⟨first, hfirst, hsome⟩, hothers⟩ := h
    refine ⟨⟨(first.1, f first.2), ?_, hsome⟩, fun branch hbranch => ?_⟩
    · rw [List.head?_map]
      exact Option.mem_map_of_mem _ hfirst
    · rw [← List.map_dropLast] at hbranch
      obtain ⟨source, hsource, rfl⟩ := List.mem_map.1 hbranch
      exact hothers source hsource
  | extend template exports =>
    refine ⟨?_, List.forall_mem_map.2 h.2⟩
    unfold Table.Sorted
    rw [Table.keys_mapValues]
    exact h.1
  | _ => exact h

theorem IsProper.hasOwnKeys {node : Node} (h : node.IsProper) : node.HasOwnKeys := by
  cases node with
  | extend => exact h.2
  | _ => trivial

/-- With the blocks that inlining leaves an extend with it is still proper. -/
theorem IsProper.keyed {template : String} {exports : Table Export} (h : (Node.extend template exports).IsProper)
    (f : Export → Block) : (Node.extend template (Table.keyed (Table.mapValues f exports))).IsProper := by
  refine ⟨?_, hasOwnKeys_keyed template _⟩
  unfold Table.Sorted
  rw [Table.keys_keyed, Table.keys_mapValues]
  exact h.1

/-! ### Nodes at every depth -/

/-- Every node is proper, in every body as well. -/
def WellFormed (nodes : List Node) : Prop := Everywhere IsProper nodes

theorem WellFormed.keyed {nodes : List Node} (h : WellFormed nodes) : Keyed nodes :=
  Everywhere.mono (fun _ => IsProper.hasOwnKeys) h

/-! ### What is read -/

theorem isSome_of_spellsBranch {name : String} {ts : List Token} {branch : Option Expr × List Node}
    (h : Grammar.SpellsBranch Grammar.Spells name ts branch) : branch.1.isSome = true := by
  cases h with
  | intro => rfl

theorem mem_of_mem_dropLast {ts : List Token} {last branches : List (Option Expr × List Node)}
    (h : Grammar.SpellsLast Grammar.Spells ts last) {branch : Option Expr × List Node}
    (hbranch : branch ∈ (branches ++ last).dropLast) : branch ∈ branches := by
  cases h with
  | absent =>
    rw [List.append_nil] at hbranch
    exact List.dropLast_subset branches hbranch
  | colon _ => rwa [List.dropLast_concat] at hbranch
  | bare _ => rwa [List.dropLast_concat] at hbranch

theorem isProper_of_spells {ts : List Token} {node : Node} (h : Grammar.SpellsNode ts node)
    (hts : .raw "" ∉ ts) : node.IsProper := by
  cases h with
  | raw text =>
    rintro rfl
    exact hts (List.mem_singleton_self _)
  | @conditional ts us vs first others last hf ho hl =>
    have hconditions : ∀ branch ∈ first :: others, branch.1.isSome = true := by
      refine List.forall_mem_cons.2 ⟨isSome_of_spellsBranch hf, fun branch hbranch => ?_⟩
      obtain ⟨ws, hws, -⟩ := ho.exists_tokens hbranch
      exact isSome_of_spellsBranch hws
    refine ⟨⟨first, rfl, isSome_of_spellsBranch hf⟩, fun branch hbranch => ?_⟩
    exact hconditions branch (mem_of_mem_dropLast hl hbranch)
  | extend template => exact ⟨List.Pairwise.nil, nofun⟩
  | extendWith template => exact ⟨Table.sorted_ofEntries _, fun _ hblock => (Table.mem_of_mem_ofKeyed hblock).2⟩
  | custom hname => exact hname
  | customWith hname => exact hname
  | _ => trivial

/-- Tokens as a text has them: none is raw text without characters, and no two raw texts are side by side. -/
structure Joined (ts : List Token) : Prop where
  nonempty : .raw "" ∉ ts
  apart : ts.IsChain Lexer.Apart

theorem joined_of_stream {mode : Lexer.Mode} {ts : List Token} (h : Lexer.Stream mode ts) : Joined ts := by
  refine ⟨?_, h.isChain_apart⟩
  induction h with
  | done => exact List.not_mem_nil
  | raw hs _ _ _ ih => simp [ih, Ne.symm hs]
  | _ => simp_all

theorem Joined.within {ts us : List Token} (h : Joined ts) (hus : us <:+: ts) : Joined us :=
  ⟨fun hm => h.nonempty (hus.subset hm), List.IsChain.infix h.apart hus⟩

/-- Nodes each of which is proper, and no two of which are raw texts side by side. -/
structure Neat (nodes : List Node) : Prop where
  proper : ∀ node ∈ nodes, node.IsProper
  parted : Parted nodes

theorem neat_of_spells {ts : List Token} {nodes : List Node} (h : Grammar.Spells ts nodes)
    (hts : Joined ts) : Neat nodes := by
  refine ⟨fun node hn => ?_, parted_of_spells h hts.apart⟩
  obtain ⟨us, hus, hin⟩ := h.exists_tokens hn
  exact isProper_of_spells hus (hts.within hin).nonempty

theorem throughout_neat {ts : List Token} {nodes : List Node} (h : Grammar.Spells ts nodes)
    (hts : Joined ts) : Throughout Neat nodes := by
  refine .intro (neat_of_spells h hts) fun node hn => ?_
  obtain ⟨us, hus, hin⟩ := h.exists_tokens hn
  refine Grammar.throughout_bodies Joined.within (fun hbody hbehind => ?_) ⟨nofun, .nil⟩
    (fun e => ⟨List.forall_mem_singleton.2 trivial, .singleton _⟩) hus (hts.within hin)
  exact neat_of_spells hbody (hbehind.within (List.prefix_append _ _).isInfix)

theorem throughout_of_parse {source : String} {nodes : List Node} (h : parse source = .ok nodes) :
    Throughout Neat nodes := by
  obtain ⟨ts, hscan, hspells⟩ := Grammar.parse_eq_ok_iff.1 h
  exact throughout_neat hspells (joined_of_stream (Lexer.stream_of_scan hscan))

theorem wellFormed_of_parse {source : String} {nodes : List Node} (h : parse source = .ok nodes) :
    WellFormed nodes :=
  (throughout_of_parse h).mono fun _ here => here.proper

/-! ### What is inlined -/

theorem wellFormed_inlineBody {atHand : Table (List Node)} {imports : Table Block} {nodes : List Node}
    (h : WellFormed nodes) (hh : ∀ name base, Table.get? atHand name = some base → WellFormed base)
    (hi : ∀ key block, Table.get? imports key = some block → WellFormed block) :
    WellFormed (inlineBody atHand imports nodes) := by
  induction hl : atHand.length using Nat.strong_induction_on
    generalizing atHand imports nodes with
  | _ size ih =>
    induction nodes using induction_body with
    | nil =>
      rw [inlineBody_nil]
      exact everywhere_nil
    | cons node nodes hn hns =>
      obtain ⟨hnode, hnodes⟩ := everywhere_cons.1 h
      rw [inlineBody_cons]
      exact everywhere_append.2 ⟨hn hnode, hns hnodes⟩
    | importing key =>
      rw [inlineBody_importing]
      cases hget : Table.get? imports key with
      | none => exact h
      | some block => exact hi key block hget
    | plain node hp hb =>
      rw [inlineBody_plain hp]
      exact h.mapBodies (fun hproper => hproper.mapBodies _) hb
    | extend template exports hb =>
      obtain ⟨hproper, hbodies⟩ := everywhere_singleton.1 h
      have hblocks : ∀ block ∈ inlineBlocks atHand imports exports, WellFormed block.2 :=
        List.forall_mem_map.2 fun block hm => hb block hm (hbodies _ (List.mem_map_of_mem hm))
      cases hget : Table.get? atHand template with
      | none =>
        rw [inlineBody_extend_of_absent hget]
        refine everywhere_singleton.2 ⟨hproper.keyed _, ?_⟩
        rw [bodies_extend_keyed]
        exact List.forall_mem_map.2 hblocks
      | some base =>
        rw [inlineBody_extend_of_get? hget]
        refine ih _ (hl ▸ length_erase_lt hget) (hh template base hget) (fun name other hother => ?_)
          (fun key block hblock => ?_) rfl
        · rw [Table.get?_erase] at hother
          split at hother
          · cases hother
          · exact hh name other hother
        · rw [Table.get?_overlay] at hblock
          rcases Option.or_eq_some_iff.1 hblock with hblock | ⟨-, hblock⟩
          · exact hblocks _ (List.mem_reverse.1 (Table.mem_of_get? hblock))
          · exact hi key block hblock

end Node

namespace Document

open Node

theorem wellFormed_rebuild {d : Document} {atHand : Table Document} (h : WellFormed d.nodes)
    (hall : ∀ name e, Table.get? atHand name = some e → WellFormed e.nodes) :
    WellFormed (d.rebuild atHand).nodes := by
  have hbases : ∀ name base, Table.get? (nodesOf atHand) name = some base → WellFormed base := by
    intro name base hget
    rw [get?_nodesOf] at hget
    obtain ⟨e, he, rfl⟩ := Option.map_eq_some_iff.1 hget
    exact hall name e he
  rw [rebuild_nodes h.keyed]
  refine Everywhere.mergeRaw (fun a b ha he => ha (String.append_eq_empty_iff.1 he).1) ?_
  exact wellFormed_inlineBody h hbases nofun

theorem Grown.wellFormed {d : Document} (h : d.Grown) : WellFormed d.nodes := by
  induction h with
  | read hparse => exact wellFormed_of_parse hparse
  | rebuild _ _ ih ihall => exact wellFormed_rebuild ih ihall
  | renamed _ _ ih => exact ih

/-- Nodes that are read are well-formed, and no two raw texts are side by side in any body. A well-formed document
stays so when it is rebuilt with well-formed ones, and so is every document that comes of texts. -/
theorem parsed_and_rebuilt_wellFormed :
    (∀ source nodes, parse source = .ok nodes → WellFormed nodes ∧ Throughout Parted nodes) ∧
    (∀ (d : Document) (atHand : Table Document), WellFormed d.nodes →
      (∀ name e, Table.get? atHand name = some e → WellFormed e.nodes) →
        WellFormed (d.rebuild atHand).nodes) ∧
    ∀ d : Document, d.Grown → WellFormed d.nodes :=
  ⟨fun _ _ h => ⟨wellFormed_of_parse h, (throughout_of_parse h).mono fun _ here => here.parted⟩,
    fun _ _ => wellFormed_rebuild, fun _ => Grown.wellFormed⟩

/-- A page that hands a base a choice of two texts, and a base that notes the page in a body of a tag. -/
def choosingPage : String := "#extend(\"base\"):#export(\"body\"):#if(x):a#else:b#endif#endexport#endextend"

def choosingNodes : List Node :=
  [.extend "base" [("body", "body", [.conditional [(some (.path "x" []), [.raw "a"]), (none, [.raw "b"])]])]]

def notingBase : String := "[#import(\"body\")]#note(1):#extend(\"page\")#endnote"

def notingNodes : List Node :=
  [.raw "[", .importing "body", .raw "]", .custom "note" [.literal (.int 1)] (some [.extend "page" []])]

/-- Each is read as it should be, and stays well-formed when it is rebuilt with both, though each needs the
other. -/
theorem parsed_and_rebuilt_wellFormed_turning :
    let page : Document := .ofNodes "page" choosingNodes
    let base : Document := .ofNodes "base" notingNodes
    parse choosingPage = .ok choosingNodes ∧ parse notingBase = .ok notingNodes ∧
      (WellFormed choosingNodes ∧ Throughout Parted choosingNodes) ∧
      (WellFormed notingNodes ∧ Throughout Parted notingNodes) ∧
      WellFormed (page.rebuild [("base", base), ("page", page)]).nodes := by
  intro page base
  have hpage : parse choosingPage = .ok choosingNodes := by decide +kernel
  have hbase : parse notingBase = .ok notingNodes := by decide +kernel
  obtain ⟨hread, hrebuilt, -⟩ := parsed_and_rebuilt_wellFormed
  have hall : ∀ name e, Table.get? [("base", base), ("page", page)] name = some e → WellFormed e.nodes := by
    intro name e hget
    rcases List.mem_pair.1 (Table.mem_of_get? hget) with h | h
    · rw [(Prod.mk.inj h).2]
      exact (hread _ _ hbase).1
    · rw [(Prod.mk.inj h).2]
      exact (hread _ _ hpage).1
  exact ⟨hpage, hbase, hread _ _ hpage, hread _ _ hbase, hrebuilt page _ (hread _ _ hpage).1 hall⟩

end Document

end Templating
