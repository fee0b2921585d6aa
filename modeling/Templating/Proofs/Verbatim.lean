import Templating.Proofs.Roundtrip
import Templating.Proofs.Tiling
import Templating.Renderer.Basic

/-!
# Text as it stands

Every text can be written in a template so that it is rendered as it stands: as raw text, with a backslash
before each `#`, or as a literal of a tag without a name, with a backslash before each quote and backslash.
-/

namespace Templating

open Text

namespace Lexer

/-! ### Raw text -/

theorem Tiled.eq_nil {ps : List Piece} (h : Tiled .text ps) {start : Nat} (hnone : lexemes start ps = []) :
    ps = [] := by
  cases h with
  | done => rfl
  | _ => cases hnone

/-- A text with a single token, raw text, is that token from its beginning to its end. -/
theorem Tiled.eq_singleton {ps : List Piece} (h : Tiled .text ps) {start : Nat} {s : String} {span : Span}
    (hone : lexemes start ps = [⟨.raw s, span⟩]) :
    ps = [⟨some (.raw s), ps.flatMap Piece.chars⟩] ∧
      span = ⟨start, start + width (ps.flatMap Piece.chars)⟩ := by
  cases h with
  | @raw a chars ps _ _ h =>
    obtain ⟨hfirst, hrest⟩ := List.cons.inj hone
    obtain rfl := h.eq_nil hrest
    obtain ⟨ha, hspan⟩ := Lexeme.mk.inj hfirst
    obtain rfl := Token.raw.inj ha
    simp [hspan]
  | done => cases hone
  | _ => exact absurd (congrArg Lexeme.token (List.cons.inj hone).1) Token.noConfusion

theorem scan_guarded_all {cs : List Char} (h : cs ≠ []) :
    scan .text (guarded cs) = some [.raw (String.ofList cs)] := by
  have hscan := @scan_guarded cs [] h (fun _ => nofun)
  rw [List.append_nil, scan_text_nil] at hscan
  exact hscan

/-- The tokens of a text whose `#` are guarded: the text itself, from its beginning to its end. -/
theorem lex_guarded (s : String) : lex (String.ofList (guarded s.toList)) =
    .ok (if s = "" then [] else [⟨.raw s, ⟨0, width (guarded s.toList)⟩⟩]) := by
  by_cases hs : s = ""
  · subst hs
    obtain ⟨ls, hlex, htokens⟩ := @lex_of_scan "" [] scan_text_nil
    obtain rfl := List.map_eq_nil_iff.1 htokens
    exact hlex
  · have hne : s.toList ≠ [] := fun he => hs (String.toList_eq_nil_iff.1 he)
    have hscan := scan_guarded_all hne
    rw [String.ofList_toList, ← @String.toList_ofList (guarded s.toList)] at hscan
    obtain ⟨ls, hlex, htokens⟩ := lex_of_scan hscan
    obtain ⟨ps, htiled, hchars, rfl⟩ := exists_tiled_of_lex hlex
    obtain ⟨⟨token, span⟩, hone, htoken : token = .raw s⟩ := List.map_eq_singleton_iff.1 htokens
    rw [htoken] at hone
    obtain ⟨-, hspan⟩ := htiled.eq_singleton hone
    rw [hlex, hone, if_neg hs, hspan, hchars, String.toList_ofList, Nat.zero_add]

/-! ### Literals -/

theorem joinRaw_eq_self {ps : List Piece} (h : ∀ p ∈ ps, ∀ a, p.token ≠ some (.raw a)) : joinRaw ps = ps := by
  induction ps with
  | nil => rfl
  | cons p ps ih =>
    obtain ⟨hp, hps⟩ := List.forall_mem_cons.1 h
    rw [joinRaw_cons_of_not hp, ih hps]

theorem cut_cons {mode : Mode} {c : Char} {cs : List Char} {s : Step} (h : step mode c cs = .ok s) :
    cut mode (c :: cs) =
      ⟨s.pieces ++ (cut s.mode (cs.drop s.extra)).pieces, (cut s.mode (cs.drop s.extra)).fault⟩ := by
  rw [cut, h]

/-- The pieces of a tag without a name that holds a literal. -/
theorem cut_literal (s : String) :
    cut .text ('#' :: '(' :: ((Text.literal s).toList ++ [')'])) =
      ⟨[⟨none, ['#']⟩, ⟨some .paramsOpen, ['(']⟩, ⟨some (.param (.text s)), (Text.literal s).toList⟩,
        ⟨some .paramsClose, [')']⟩], none⟩ := by
  have hliteral : (Text.literal s).toList ++ [')'] = '"' :: ((escaped s.toList ++ ['"']) ++ [')']) := by
    rw [toList_literal, List.cons_append]
  have hopen : step .text '#' ('(' :: ((Text.literal s).toList ++ [')'])) =
      .ok ⟨[⟨none, ['#']⟩, ⟨some .paramsOpen, ['(']⟩], 1, .params false 0⟩ := rfl
  have hclose : step (.params false 0) ')' [] = .ok (.one .text (some .paramsClose) ')' []) := rfl
  have hend : cut .text [] = ⟨[], none⟩ := by rw [cut, if_pos rfl]
  rw [cut_cons hopen]
  dsimp only [List.drop]
  rw [hliteral, cut_cons (step_literal s [')'])]
  dsimp only [Step.one]
  rw [List.drop_left, cut_cons hclose]
  dsimp only [Step.one, List.length, List.drop]
  rw [hend, toList_literal]
  rfl

theorem lex_literal (s : String) : lex ("#(" ++ Text.literal s ++ ")") =
    .ok [⟨.paramsOpen, ⟨1, 2⟩⟩, ⟨.param (.text s), ⟨2, 2 + width (Text.literal s).toList⟩⟩,
      ⟨.paramsClose, ⟨2 + width (Text.literal s).toList, 2 + width (Text.literal s).toList + 1⟩⟩] := by
  have hsource : ("#(" ++ Text.literal s ++ ")").toList =
      '#' :: '(' :: ((Text.literal s).toList ++ [')']) := by simp
  unfold lex
  rw [hsource, cut_literal]
  dsimp only
  rw [joinRaw_eq_self (by simp)]
  rfl

end Lexer

open Text

/-! ### What is rendered -/

/-- A template that needs no other and writes the same text in every scope is rendered to that text. -/
theorem renderText_of_writeBody {source s : String} {nodes : List Node} (hparse : parse source = .ok nodes)
    (hneeds : Node.bodyReferences nodes = [])
    (hwrite : ∀ callables scope, Node.writeBody callables scope nodes = .ok s) (context : Value) :
    renderText source context = context.context.map fun _ => s := by
  unfold renderText
  rw [hparse]
  cases context.context with
  | error e => rfl
  | ok entries =>
    show (Document.ofNodes "(inline)" nodes).write ⟨Tags.builtin, []⟩ entries = .ok s
    unfold Document.write Document.isFlat Document.ofNodes
    dsimp only
    rw [hneeds]
    show Except.mapError Error.write (Node.writeBody _ _ nodes) = _
    rw [hwrite]
    rfl

/-- Every text can be written as raw text: with its `#` guarded it is a single token, from the beginning of
the template to its end, a single node, and rendered as it stands. -/
theorem renderText_guarded (s : String) :
    let source := String.ofList (guarded s.toList)
    lex source = .ok (if s = "" then [] else [⟨.raw s, ⟨0, width source.toList⟩⟩]) ∧
      parse source = .ok (if s = "" then [] else [.raw s]) ∧
      ∀ context, renderText source context = context.context.map fun _ => s := by
  intro source
  have hlex : lex source = .ok (if s = "" then [] else [⟨.raw s, ⟨0, width source.toList⟩⟩]) := by
    rw [String.toList_ofList]
    exact Lexer.lex_guarded s
  have hparse : parse source = .ok (if s = "" then [] else [.raw s]) := by
    refine Grammar.parse_eq_ok_iff.2 ⟨_, Lexer.scan_of_lex hlex, ?_⟩
    split
    · exact .nil
    · exact Each.cons (Grammar.SpellsNode.raw s) .nil
  refine ⟨hlex, hparse, renderText_of_writeBody hparse ?_ fun callables scope => ?_⟩
  · split <;> rfl
  · split
    · next hs => rw [hs]; rfl
    · exact congrArg Except.ok (String.append_empty)

/-- Every text can be written as a literal: a tag without a name that holds it between quotes has the text
as its only parameter, and is rendered to it. -/
theorem renderText_literal (s : String) :
    let source := "#(" ++ Text.literal s ++ ")"
    let stop := 2 + width (Text.literal s).toList
    lex source =
        .ok [⟨.paramsOpen, ⟨1, 2⟩⟩, ⟨.param (.text s), ⟨2, stop⟩⟩, ⟨.paramsClose, ⟨stop, stop + 1⟩⟩] ∧
      ∀ context, renderText source context = context.context.map fun _ => s := by
  intro source stop
  have hlex := Lexer.lex_literal s
  refine ⟨hlex, ?_⟩
  have hparse : parse source = .ok [.expression (.literal (.text s))] := by
    have hnode : Grammar.SpellsNode (Grammar.inParens [.param (.text s)])
        (.expression (.literal (.text s))) := .expression (Lexer.prints_text s).spellsExpr
    exact Grammar.parse_eq_ok_iff.2 ⟨_, Lexer.scan_of_lex hlex, Each.cons hnode .nil⟩
  refine renderText_of_writeBody hparse rfl fun callables scope => ?_
  exact congrArg Except.ok String.append_empty

end Templating
