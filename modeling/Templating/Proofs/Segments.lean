import Templating.Proofs.Scanning
import Templating.Proofs.Spelling

/-!
# Segments of tokens

The tokens of a text are raw texts, tags without parameters, and parameters in the parentheses of a tag
with a name or without one, perhaps with the colon behind them that opens a body. The parentheses within
parameters are balanced, since the one that closes the tag is the first that they leave over.
-/

namespace Templating

namespace ParamToken

/-- The parentheses in parameters close `depth` more than they open, and no earlier than at the end. -/
structure Nested (depth : Nat) (params : List ParamToken) : Prop where
  total : params.count .parenClose = params.count .parenOpen + depth
  early : ∀ front, front <+: params → front.count .parenClose ≤ front.count .parenOpen + depth

/-- Each parenthesis in parameters is closed in them, and none before it is opened. -/
def Balanced (params : List ParamToken) : Prop := Nested 0 params

theorem Nested.nil : Nested 0 [] := by
  refine ⟨rfl, fun front h => ?_⟩
  rw [List.prefix_nil.1 h]
  exact Nat.le_refl 0

/-- A token in front of parameters that close what it leaves open. -/
theorem Nested.cons {t : ParamToken} {depth depth' : Nat} {params : List ParamToken}
    (ht : Lexer.Nests t depth depth') (h : Nested depth' params) : Nested depth (t :: params) := by
  -- what the token opens or closes is what it adds to the depth
  have hcount : ∀ rest : List ParamToken,
      (t :: rest).count .parenClose + rest.count .parenOpen + depth' =
        rest.count .parenClose + (t :: rest).count .parenOpen + depth := by
    intro rest
    cases t <;> simp [Lexer.Nests] at ht ⊢ <;> omega
  refine ⟨?_, fun front hfront => ?_⟩
  · have htotal := h.total
    have hparams := hcount params
    omega
  · cases front with
    | nil => exact Nat.zero_le _
    | cons u front =>
      obtain ⟨rfl, hrest⟩ := List.cons_prefix_cons.1 hfront
      have hearly := h.early front hrest
      have hfront := hcount front
      omega

end ParamToken

namespace Lexer

open Grammar (inParens)
open ParamToken (Nested Balanced)

/-! ### Segments -/

/-- What the tokens of a text are made of. -/
inductive Segment : List Token → Prop where
  | raw (text : String) : Segment [.raw text]
  | keyword {name : String} (hname : isKeywordTag name = true) : Segment [.tag name]
  | otherwise : Segment [.tag "else", .bodyStart]
  | tag (name : String) {params : List ParamToken} (h : Balanced params) :
    Segment (.tag name :: inParens (params.map .param))
  | opened (name : String) {params : List ParamToken} (h : Balanced params) :
    Segment (.tag name :: (inParens (params.map .param) ++ [.bodyStart]))
  | anonymous {params : List ParamToken} (h : Balanced params) : Segment (inParens (params.map .param))

def Segmented (ts : List Token) : Prop :=
  ∃ segments : List (List Token), ts = segments.flatten ∧ ∀ s ∈ segments, Segment s

variable {ts us : List Token}

theorem Segmented.nil : Segmented [] := ⟨[], rfl, nofun⟩

theorem Segment.append (hs : Segment ts) (h : Segmented us) : Segmented (ts ++ us) := by
  obtain ⟨segments, rfl, h⟩ := h
  exact ⟨ts :: segments, rfl, List.forall_mem_cons.2 ⟨hs, h⟩⟩

/-- Raw text may be put in front of every other: it is a segment of its own or part of the next. -/
theorem Segmented.consRaw (a : String) (h : Segmented ts) : Segmented (consRaw a ts) := by
  by_cases hraw : StartsRaw ts
  · obtain ⟨segments, rfl, h⟩ := h
    induction segments with
    | nil => exact hraw.elim
    | cons s segments ih =>
      obtain ⟨hs, hrest⟩ := List.forall_mem_cons.1 h
      have hrest : Segmented segments.flatten := ⟨segments, rfl, hrest⟩
      cases hs with
      | raw b => exact (Segment.raw (a ++ b)).append hrest
      | _ => exact hraw.elim
  · rw [consRaw_of_not hraw]
    exact (Segment.raw a).append h

/-! ### From parameters on -/

/-- The tokens from parameters on, `depth` parentheses deep: what is left of the parameters, the
parenthesis of the tag, the colon of its body, if it has one, and segments. -/
def Resumed (named : Bool) (depth : Nat) (ts : List Token) : Prop :=
  ∃ params colon rest, ts = params.map .param ++ .paramsClose :: (colon ++ rest) ∧ Nested depth params ∧
    (colon = [] ∨ named = true ∧ colon = [.bodyStart]) ∧ Segmented rest

theorem Resumed.cons {named : Bool} {depth depth' : Nat} {t : ParamToken} (ht : Nests t depth depth')
    (h : Resumed named depth' ts) : Resumed named depth (.param t :: ts) := by
  obtain ⟨params, colon, rest, rfl, hnested, hcolon, hrest⟩ := h
  exact ⟨t :: params, colon, rest, rfl, hnested.cons ht, hcolon, hrest⟩

theorem Resumed.named (name : String) (h : Resumed true 0 ts) : Segmented (.tag name :: .paramsOpen :: ts) := by
  obtain ⟨params, colon, rest, rfl, hbalanced, hcolon, hrest⟩ := h
  rcases hcolon with rfl | ⟨-, rfl⟩
  · have htag := (Segment.tag name hbalanced).append hrest
    simpa [inParens] using htag
  · have hopened := (Segment.opened name hbalanced).append hrest
    simpa [inParens] using hopened

theorem Resumed.anonymous (h : Resumed false 0 ts) : Segmented (.paramsOpen :: ts) := by
  obtain ⟨params, colon, rest, rfl, hbalanced, hcolon, hrest⟩ := h
  rcases hcolon with rfl | ⟨hnamed, -⟩
  · have hparens := (Segment.anonymous hbalanced).append hrest
    simpa [inParens] using hparens
  · cases hnamed

/-! ### The whole text -/

/-- What the tokens of a text are, by the mode that they are read in. -/
def Shaped : Mode → List Token → Prop
  | .text, ts => Segmented ts
  | .params named depth, ts => Resumed named depth ts

/-- The pieces of one step, in front of what is behind it. -/
theorem Shaped.step {mode : Mode} {c : Char} {cs : List Char} {s : Step} (hs : step mode c cs = .ok s)
    (h : Shaped s.mode ts) : Shaped mode (s.pieces.foldr (fun p => put p.token) ts) := by
  cases mode with
  | text =>
    have hcases : TextStep c cs s := Except.ok.inj hs ▸ textStep_cases c cs
    cases hcases with
    | plain => exact Segmented.consRaw _ h
    | escaped => exact Segmented.consRaw _ h
    | backslash => exact Segmented.consRaw _ h
    | indicator => exact Segmented.consRaw _ h
    | anonymous => exact Resumed.anonymous h
    | named => exact Resumed.named _ h
    | otherwise _ hname =>
      have hotherwise : Segmented (.tag "else" :: .bodyStart :: ts) := Segment.otherwise.append h
      rwa [← hname] at hotherwise
    | keyword _ hname => exact (Segment.keyword hname).append h
  | params named depth =>
    cases paramStep_cases hs with
    | skip => exact h
    | token _ _ _ _ hnests => exact Resumed.cons hnests h
    | close hdepth =>
      subst hdepth
      exact ⟨[], [], ts, rfl, .nil, .inl rfl, h⟩
    | opened hnamed hdepth =>
      subst hdepth
      exact ⟨[], [.bodyStart], ts, rfl, .nil, .inr ⟨hnamed, rfl⟩, h⟩

theorem shaped_of_scan {mode : Mode} {cs : List Char} (h : scan mode cs = some ts) : Shaped mode ts := by
  induction mode, cs using cut.induct generalizing ts with
  | case1 mode =>
    cases mode with
    | text =>
      rw [scan_text_nil] at h
      obtain rfl := Option.some.inj h
      exact Segmented.nil
    | params =>
      rw [scan] at h
      cases h
  | case2 mode c cs fault hs =>
    rw [scan, hs] at h
    cases h
  | case3 mode c cs s hs ih =>
    rw [scan_cons hs] at h
    obtain ⟨us, hus, rfl⟩ := Option.map_eq_some_iff.1 h
    exact .step hs (ih hus)

end Lexer

open Lexer

/-- The tokens of a text are segments: raw text; the tag of a keyword alone, which for `else` may have a
colon behind it; and balanced parameters in the parentheses of a tag, with a colon behind them at most
where the tag has a name. -/
theorem segmented_of_lex {source : String} {ls : List Lexeme} (h : lex source = .ok ls) :
    ∃ segments : List (List Token), tokens ls = segments.flatten ∧ ∀ s ∈ segments, Segment s :=
  shaped_of_scan (scan_of_lex h)

/-- Parentheses within parameters, and one in a string there. -/
def nestedParens : String := "#if((a)):x#else:y#(f(\")\"))"

def nestedParensLexemes : List Lexeme :=
  [⟨.tag "if", ⟨0, 3⟩⟩, ⟨.paramsOpen, ⟨3, 4⟩⟩, ⟨.param .parenOpen, ⟨4, 5⟩⟩, ⟨.param (.ident "a"), ⟨5, 6⟩⟩,
    ⟨.param .parenClose, ⟨6, 7⟩⟩, ⟨.paramsClose, ⟨7, 8⟩⟩, ⟨.bodyStart, ⟨8, 9⟩⟩, ⟨.raw "x", ⟨9, 10⟩⟩,
    ⟨.tag "else", ⟨10, 15⟩⟩, ⟨.bodyStart, ⟨15, 16⟩⟩, ⟨.raw "y", ⟨16, 17⟩⟩, ⟨.paramsOpen, ⟨18, 19⟩⟩,
    ⟨.param (.ident "f"), ⟨19, 20⟩⟩, ⟨.param .parenOpen, ⟨20, 21⟩⟩, ⟨.param (.text ")"), ⟨21, 24⟩⟩,
    ⟨.param .parenClose, ⟨24, 25⟩⟩, ⟨.paramsClose, ⟨25, 26⟩⟩]

theorem segmented_nestedParens : lex nestedParens = .ok nestedParensLexemes ∧
    ∃ segments : List (List Token), tokens nestedParensLexemes = segments.flatten ∧
      ∀ s ∈ segments, Segment s := by
  have hlex : lex nestedParens = .ok nestedParensLexemes := by decide +kernel
  exact ⟨hlex, segmented_of_lex hlex⟩

end Templating
