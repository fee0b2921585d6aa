import Templating.Proofs.Reading
import Templating.Token.Lexer
import Mathlib.Data.List.Chain

/-!
# Scanned text

The tokens of a text without their places: what one step cuts off is put in front of what is behind
it, and raw text in front of raw text is joined with it. Every stream of tokens that a text has keeps
to a few rules: no tag lacks a name, no two raw texts stand side by side, a backslash ends raw text only
at the end of all, and behind the parameters of a tag no raw text begins with a colon.
-/

namespace Templating

namespace Lexer

def consRaw (a : String) : List Token → List Token
  | .raw b :: ts => .raw (a ++ b) :: ts
  | ts => .raw a :: ts

/-- A token, if there is one, in front of others. -/
def put : Option Token → List Token → List Token
  | none, ts => ts
  | some (.raw a), ts => consRaw a ts
  | some t, ts => t :: ts

/-- The tokens of a text, if it has no fault. -/
def scan (mode : Mode) (cs : List Char) : Option (List Token) :=
  match cs with
  | [] => if mode = .text then some [] else none
  | c :: cs =>
    match step mode c cs with
    | .error _ => none
    | .ok s => (scan s.mode (cs.drop s.extra)).map fun ts => s.pieces.foldr (fun p => put p.token) ts
termination_by cs.length
decreasing_by
  simp only [List.length_drop, List.length_cons]
  omega

@[simp] theorem scan_text_nil : scan .text [] = some [] := by rw [scan, if_pos rfl]

theorem scan_cons {mode : Mode} {c : Char} {cs : List Char} {s : Step} (h : step mode c cs = .ok s) :
    scan mode (c :: cs) =
      (scan s.mode (cs.drop s.extra)).map fun ts => s.pieces.foldr (fun p => put p.token) ts := by
  rw [scan, h]

/-! ### One step -/

/-- Whether raw text comes first. -/
def StartsRaw : List Token → Prop
  | .raw _ :: _ => True
  | _ => False

theorem consRaw_of_not {a : String} {ts : List Token} (h : ¬ StartsRaw ts) : consRaw a ts = .raw a :: ts := by
  unfold consRaw
  split
  · exact (h trivial).elim
  · rfl

/-- What a step in literal text cuts off, and what it leaves. -/
inductive TextStep (c : Char) (cs : List Char) : Step → Prop where
  | plain (hc : isPlain c = true) (hrun : ∀ d ∈ cs.takeWhile isPlain, isPlain d = true) :
    TextStep c cs (.one .text (some (.raw (String.ofList (c :: cs.takeWhile isPlain)))) c
      (cs.takeWhile isPlain))
  | escaped {rest : List Char} (hc : c = '\\') (hcs : cs = '#' :: rest) :
    TextStep c cs (.one .text (some (.raw "#")) '\\' ['#'])
  | backslash (hc : c = '\\') (hcs : cs.head? ≠ some '#') :
    TextStep c cs (.one .text (some (.raw "\\")) '\\' [])
  | indicator (hc : c = '#') (behind : List Char) (h : ∀ d ∈ behind, isNamePart d = true)
    (hcs : behind <+: cs) :
    TextStep c cs (.one .text (some (.raw (String.ofList ('#' :: behind)))) '#' behind)
  | anonymous (hc : c = '#') (hcs : ['('] <+: cs) :
    TextStep c cs ⟨[⟨none, ['#']⟩, ⟨some .paramsOpen, ['(']⟩], 1, .params false 0⟩
  | named (hc : c = '#') {name : List Char} (h : name ≠ []) (hcs : name ++ ['('] <+: cs) :
    TextStep c cs ⟨[⟨some (.tag (String.ofList name)), '#' :: name⟩, ⟨some .paramsOpen, ['(']⟩],
      name.length + 1, .params true 0⟩
  | otherwise (hc : c = '#') {name : List Char} (h : String.ofList name = "else")
    (hcs : name ++ [':'] <+: cs) :
    TextStep c cs ⟨[⟨some (.tag (String.ofList name)), '#' :: name⟩, ⟨some .bodyStart, [':']⟩],
      name.length + 1, .text⟩
  | keyword (hc : c = '#') {name : List Char} (h : isKeywordTag (String.ofList name) = true)
    (hcs : name <+: cs) :
    TextStep c cs ⟨[⟨some (.tag (String.ofList name)), '#' :: name⟩], name.length, .text⟩

theorem all_of_takeWhile {p : Char → Bool} {cs : List Char} : ∀ d ∈ cs.takeWhile p, p d = true :=
  fun _ hd => (List.all_eq_true.1 List.all_takeWhile) _ hd

theorem isPrefix_takeWhile_append {p : Char → Bool} {cs : List Char} (ds : List Char) {rest : List Char}
    (h : cs.dropWhile p = ds ++ rest) : cs.takeWhile p ++ ds <+: cs :=
  ⟨rest, by rw [List.append_assoc, ← h, List.takeWhile_append_dropWhile]⟩

theorem textStep_indicator (cs : List Char) : TextStep '#' cs (indicatorStep cs) := by
  unfold indicatorStep
  dsimp only
  split
  · exact .anonymous rfl ⟨_, rfl⟩
  · next c cs hne =>
    have hprefix : (c :: cs).takeWhile isNamePart <+: c :: cs := List.takeWhile_prefix _
    split
    · next hstart =>
      have hname : (c :: cs).takeWhile isNamePart ≠ [] := by
        have hpart : isNamePart c = true := by rw [isNamePart, hstart, Bool.true_or]
        rw [List.takeWhile_cons_of_pos hpart]
        exact List.cons_ne_nil _ _
      split
      · next hdrop => exact .named rfl hname (isPrefix_takeWhile_append ['('] hdrop)
      · next hdrop =>
        split
        · next h => exact .otherwise rfl h (isPrefix_takeWhile_append [':'] hdrop)
        · split
          · next h => exact .keyword rfl h hprefix
          · exact .indicator rfl _ all_of_takeWhile hprefix
      · split
        · next h => exact .keyword rfl h hprefix
        · exact .indicator rfl _ all_of_takeWhile hprefix
    · exact .indicator rfl [] (fun d hd => absurd hd List.not_mem_nil) List.nil_prefix
  · exact .indicator rfl [] (fun d hd => absurd hd List.not_mem_nil) List.nil_prefix

theorem textStep_cases (c : Char) (cs : List Char) : TextStep c cs (textStep c cs) := by
  unfold textStep
  split
  · next h =>
    subst h
    exact textStep_indicator cs
  · next hhash =>
    split
    · next h =>
      split
      · exact .escaped h rfl
      · next hne =>
        refine .backslash h fun hhead => ?_
        cases cs with
        | nil => cases hhead
        | cons d rest => exact hne rest (by rw [Option.some.inj hhead])
    · next hback =>
      have hc : isPlain c = true := by simp [isPlain, hhash, hback]
      exact .plain hc all_of_takeWhile

/-- With so many parentheses open before it, a parameter token leaves so many open behind it. -/
def Nests (t : ParamToken) (depth depth' : Nat) : Prop :=
  match t with
  | .parenOpen => depth' = depth + 1
  | .parenClose => depth = depth' + 1
  | _ => depth' = depth

/-- What a step in parameters cuts off, and what it leaves. -/
inductive ParamStep (named : Bool) (depth : Nat) (c : Char) (cs : List Char) : Step → Prop where
  | skip (behind : List Char) (hcs : behind <+: cs) (hblank : ∀ d ∈ c :: behind, isParamBlank d = true) :
    ParamStep named depth c cs (.one (.params named depth) none c behind)
  | token (depth' : Nat) (t : ParamToken) (behind : List Char) (hcs : behind <+: cs)
    (hnests : Nests t depth depth') :
    ParamStep named depth c cs (.one (.params named depth') (some (.param t)) c behind)
  | close (hdepth : depth = 0) (hcs : named = true → cs.head? ≠ some ':') (hc : c = ')') :
    ParamStep named depth c cs (.one .text (some .paramsClose) ')' [])
  | opened (hnamed : named = true) (hdepth : depth = 0) (hc : c = ')') (hcs : [':'] <+: cs) :
    ParamStep named depth c cs ⟨[⟨some .paramsClose, [')']⟩, ⟨some .bodyStart, [':']⟩], 1, .text⟩

theorem closingStep_cases (named : Bool) (cs : List Char) :
    ParamStep named 0 ')' cs (closingStep named cs) := by
  unfold closingStep
  split
  · exact .opened rfl rfl rfl ⟨_, rfl⟩
  · next hne =>
    refine .close rfl (fun hnamed hhead => ?_) rfl
    cases cs with
    | nil => cases hhead
    | cons d rest => exact hne rest hnamed (by rw [Option.some.inj hhead])

/-- A step takes a token that begins at `c` and is no parenthesis. -/
def Takes (mode : Mode) (c : Char) (cs : List Char) (read : Except Fault Step) : Prop :=
  ∀ s, read = .ok s → ∃ t behind, behind <+: cs ∧ (∀ depth, Nests t depth depth) ∧
    s = .one mode (some (.param t)) c behind

theorem takes_tokenStep (mode : Mode) {t : ParamToken} (c : Char) {cs behind : List Char}
    (ht : ∀ depth, Nests t depth depth) (h : behind <+: cs) :
    Takes mode c cs (tokenStep mode t c behind) := by
  intro s hs
  exact ⟨t, behind, h, ht, (Except.ok.inj hs).symm⟩

theorem takes_error (mode : Mode) (c : Char) (cs : List Char) (fault : Fault) :
    Takes mode c cs (.error fault) := nofun

theorem prefix_of_stringChars {cs chars : List Char} (h : stringChars cs = .ok chars) : chars <+: cs := by
  fun_induction stringChars cs generalizing chars with
  | case1 cs =>
    obtain rfl := Except.ok.inj h
    exact ⟨cs, rfl⟩
  | case3 c cs _ more hmore ih =>
    obtain rfl := Except.ok.inj h
    exact List.cons_prefix_cons.2 ⟨rfl, List.cons_prefix_cons.2 ⟨rfl, ih hmore⟩⟩
  | case6 c cs _ _ _ more hmore ih =>
    obtain rfl := Except.ok.inj h
    exact List.cons_prefix_cons.2 ⟨rfl, ih hmore⟩
  | _ => cases h

theorem takes_stringStep (mode : Mode) (cs : List Char) : Takes mode '"' cs (stringStep mode cs) := by
  unfold stringStep
  split
  · next h => exact takes_tokenStep _ _ (fun _ => rfl) (prefix_of_stringChars h)
  · exact takes_error _ _ _ _

theorem takes_numberStep (mode : Mode) (c : Char) (cs : List Char) :
    Takes mode c cs (numberStep mode c cs) := by
  have hinteger : Takes mode c cs
      (if decimal (c :: cs.takeWhile Char.isDigit) < Nat.pow 2 63 then
        tokenStep mode (.int (decimal (c :: cs.takeWhile Char.isDigit))) c (cs.takeWhile Char.isDigit)
      else .error (.unexpected (c :: cs.takeWhile Char.isDigit))) := by
    split
    · exact takes_tokenStep _ _ (fun _ => rfl) (List.takeWhile_prefix _)
    · exact takes_error _ _ _ _
  unfold numberStep
  dsimp only
  split
  · next rest hdrop =>
    split
    · exact hinteger
    · have hplaces : cs.dropWhile Char.isDigit =
          '.' :: rest.takeWhile Char.isDigit ++ rest.dropWhile Char.isDigit := by
        rw [hdrop, List.cons_append, List.takeWhile_append_dropWhile]
      exact takes_tokenStep _ _ (fun _ => rfl) (isPrefix_takeWhile_append _ hplaces)
  · exact hinteger

theorem takes_operatorStep (mode : Mode) (c : Char) (cs : List Char) :
    Takes mode c cs (operatorStep mode c cs) := by
  unfold operatorStep
  dsimp only
  split <;> first | exact takes_error _ _ _ _ | exact takes_tokenStep _ _ (fun _ => rfl) ⟨_, rfl⟩

theorem nests_nameToken (name : String) (depth : Nat) : Nests (nameToken name) depth depth := by
  unfold nameToken
  split
  · rfl
  split
  · rfl
  split <;> rfl

theorem paramStep_cases {named : Bool} {depth : Nat} {c : Char} {cs : List Char} {s : Step}
    (h : paramStep named depth c cs = .ok s) : ParamStep named depth c cs s := by
  have htoken : ∀ {read : Except Fault Step}, Takes (.params named depth) c cs read →
      read = .ok s → ParamStep named depth c cs s := by
    intro read htakes hread
    obtain ⟨t, behind, hcs, ht, rfl⟩ := htakes s hread
    exact .token depth t behind hcs (ht depth)
  have hsymbol : ∀ {depth' : Nat} {t : ParamToken}, tokenStep (.params named depth') t c [] = .ok s →
      Nests t depth depth' → ParamStep named depth c cs s := by
    intro depth' t hread ht
    obtain rfl := Except.ok.inj hread
    exact .token depth' t [] List.nil_prefix ht
  unfold paramStep at h
  dsimp only at h
  split at h
  · next hblank =>
    obtain rfl := Except.ok.inj h
    exact .skip _ (List.takeWhile_prefix _) (List.forall_mem_cons.2 ⟨hblank, all_of_takeWhile⟩)
  split at h
  · exact hsymbol h rfl
  split at h
  · next hc =>
    split at h
    · obtain rfl := Except.ok.inj h
      exact hc ▸ closingStep_cases named cs
    · exact hsymbol h rfl
  split at h
  · exact hsymbol h rfl
  split at h
  · exact hsymbol h rfl
  split at h
  · next hc =>
    subst hc
    exact htoken (takes_stringStep _ cs) h
  split at h
  · exact htoken (takes_numberStep _ c cs) h
  split at h
  · exact htoken (takes_tokenStep _ c (nests_nameToken _) (List.takeWhile_prefix _)) h
  · exact htoken (takes_operatorStep _ c cs) h

/-! ### Scanning and cutting -/

def unplaced (ps : List Piece) : List Token := ps.filterMap Piece.token

theorem tokens_lexemes (start : Nat) (ps : List Piece) : tokens (lexemes start ps) = unplaced ps := by
  induction ps generalizing start with
  | nil => rfl
  | cons p ps ih =>
    obtain ⟨token, chars⟩ := p
    cases token with
    | none => exact ih _
    | some token => exact congrArg (token :: ·) (ih _)

/-- Raw text comes first among the tokens only where it comes first among the pieces, in literal text. -/
def Leads (mode : Mode) (ps : List Piece) : Prop :=
  StartsRaw (unplaced (joinRaw ps)) →
    mode = .text ∧ ∃ a chars rest, joinRaw ps = ⟨some (.raw a), chars⟩ :: rest

theorem joinRaw_cons_of_not {p : Piece} (h : ∀ a, p.token ≠ some (.raw a)) (ps : List Piece) :
    joinRaw (p :: ps) = p :: joinRaw ps :=
  joinRaw.eq_3 ps p fun a _ _ _ _ hp _ => h a (by rw [hp])

theorem unplaced_raw {mode : Mode} {ps : List Piece} (h : Leads mode ps) (a : String) (chars : List Char) :
    unplaced (joinRaw (⟨some (.raw a), chars⟩ :: ps)) = consRaw a (unplaced (joinRaw ps)) ∧
      ∃ b more rest, joinRaw (⟨some (.raw a), chars⟩ :: ps) = ⟨some (.raw b), more⟩ :: rest := by
  by_cases hraw : StartsRaw (unplaced (joinRaw ps))
  · obtain ⟨-, b, more, rest, hjoin⟩ := h hraw
    rw [joinRaw.eq_2 ps a chars b more rest hjoin, hjoin]
    exact ⟨rfl, _, _, _, rfl⟩
  · have hjoin : joinRaw (⟨some (.raw a), chars⟩ :: ps) = ⟨some (.raw a), chars⟩ :: joinRaw ps := by
      refine joinRaw.eq_3 ps _ fun _ _ b more rest _ hps => hraw ?_
      rw [hps]
      trivial
    rw [hjoin, consRaw_of_not hraw]
    exact ⟨rfl, _, _, _, rfl⟩

theorem unplaced_append {ps : List Piece} (h : ∀ p ∈ ps, ∀ a, p.token ≠ some (.raw a)) (rest : List Piece) :
    unplaced (joinRaw (ps ++ rest)) = ps.foldr (fun p => put p.token) (unplaced (joinRaw rest)) := by
  induction ps with
  | nil => rfl
  | cons p ps ih =>
    obtain ⟨hp, hps⟩ := List.forall_mem_cons.1 h
    rw [List.cons_append, joinRaw_cons_of_not hp, List.foldr_cons, ← ih hps]
    obtain ⟨token, chars⟩ := p
    cases token with
    | none => rfl
    | some token =>
      cases token with
      | raw a => exact absurd rfl (hp a)
      | _ => rfl

theorem leads_append {mode : Mode} {c : Char} {cs : List Char} {s : Step} (hs : step mode c cs = .ok s)
    {ps : List Piece} (h : Leads s.mode ps) :
    unplaced (joinRaw (s.pieces ++ ps)) = s.pieces.foldr (fun p => put p.token) (unplaced (joinRaw ps)) ∧
      Leads mode (s.pieces ++ ps) := by
  have hraw : ∀ (a : String) (c : Char) (behind : List Char), s = .one .text (some (.raw a)) c behind →
      mode = .text → unplaced (joinRaw (s.pieces ++ ps)) =
        s.pieces.foldr (fun p => put p.token) (unplaced (joinRaw ps)) ∧ Leads mode (s.pieces ++ ps) := by
    rintro a c behind rfl rfl
    obtain ⟨hput, hlead⟩ := unplaced_raw h a (c :: behind)
    exact ⟨hput, fun _ => ⟨rfl, hlead⟩⟩
  have hother : (∀ p ∈ s.pieces, ∀ a, p.token ≠ some (.raw a)) →
      ¬ StartsRaw (s.pieces.foldr (fun p => put p.token) (unplaced (joinRaw ps))) →
        unplaced (joinRaw (s.pieces ++ ps)) =
          s.pieces.foldr (fun p => put p.token) (unplaced (joinRaw ps)) ∧ Leads mode (s.pieces ++ ps) := by
    intro hp hstart
    have hput := unplaced_append hp ps
    exact ⟨hput, fun hs => (hstart (hput ▸ hs)).elim⟩
  cases mode with
  | text =>
    have hcases : TextStep c cs s := Except.ok.inj hs ▸ textStep_cases c cs
    cases hcases with
    | plain => exact hraw _ _ _ rfl rfl
    | escaped => exact hraw _ _ _ rfl rfl
    | backslash => exact hraw _ _ _ rfl rfl
    | indicator => exact hraw _ _ _ rfl rfl
    | anonymous => exact hother (by simp) id
    | named => exact hother (by simp) id
    | otherwise => exact hother (by simp) id
    | keyword => exact hother (by simp) id
  | params named depth =>
    cases paramStep_cases hs with
    | skip => exact hother (by simp [Step.one]) fun hstart => Mode.noConfusion (h hstart).1
    | token => exact hother (by simp [Step.one]) id
    | close => exact hother (by simp [Step.one]) id
    | opened => exact hother (by simp) id

theorem scan_cut (mode : Mode) (cs : List Char) :
    Leads mode (cut mode cs).pieces ∧ scan mode cs =
      if (cut mode cs).fault = none then some (unplaced (joinRaw (cut mode cs).pieces)) else none := by
  induction mode, cs using cut.induct with
  | case1 mode =>
    rw [scan, cut]
    refine ⟨False.elim, ?_⟩
    by_cases h : mode = .text <;> simp [h, unplaced, joinRaw]
  | case2 mode c cs fault h =>
    rw [scan, cut, h]
    exact ⟨False.elim, rfl⟩
  | case3 mode c cs s h ih =>
    obtain ⟨hleads, hscan⟩ := ih
    obtain ⟨hput, hlead⟩ := leads_append h hleads
    rw [scan_cons h, hscan, cut, h]
    refine ⟨hlead, ?_⟩
    dsimp only
    rw [hput]
    split <;> rfl

theorem scan_of_lex {source : String} {ls : List Lexeme} (h : lex source = .ok ls) :
    scan .text source.toList = some (tokens ls) := by
  unfold lex at h
  dsimp only at h
  split at h
  · next hfault =>
    obtain rfl := Except.ok.inj h
    rw [(scan_cut _ _).2, if_pos hfault, tokens_lexemes]
  · cases h

theorem lex_of_scan {source : String} {ts : List Token} (h : scan .text source.toList = some ts) :
    ∃ ls, lex source = .ok ls ∧ tokens ls = ts := by
  rw [(scan_cut _ _).2] at h
  split at h
  · next hfault =>
    refine ⟨lexemes 0 (joinRaw (cut .text source.toList).pieces), ?_, ?_⟩
    · unfold lex
      dsimp only
      rw [hfault]
    · rw [tokens_lexemes]
      exact Option.some.inj h
  · cases h

/-! ### What a text can hold -/

/-- The tokens that a text may have, from literal text or from parameters on. -/
inductive Stream : Mode → List Token → Prop where
  | done : Stream .text []
  | raw {s : String} {ts : List Token} (hs : s ≠ "") (hraw : ¬ StartsRaw ts)
    (hend : s.toList.getLast? = some '\\' → ts = []) (h : Stream .text ts) : Stream .text (.raw s :: ts)
  | tag {name : String} {ts : List Token} (hname : name ≠ "") (h : Stream (.params true 0) ts) :
    Stream .text (.tag name :: .paramsOpen :: ts)
  | anonymous {ts : List Token} (h : Stream (.params false 0) ts) : Stream .text (.paramsOpen :: ts)
  | keyword {name : String} {ts : List Token} (hname : isKeywordTag name = true) (h : Stream .text ts) :
    Stream .text (.tag name :: ts)
  | otherwise {ts : List Token} (h : Stream .text ts) : Stream .text (.tag "else" :: .bodyStart :: ts)
  | param {named : Bool} {depth depth' : Nat} (t : ParamToken) {ts : List Token}
    (h : Stream (.params named depth') ts) : Stream (.params named depth) (.param t :: ts)
  | close {named : Bool} {depth : Nat} {ts : List Token}
    (hcolon : named = true → ∀ s us, ts = .raw s :: us → s.toList.head? ≠ some ':')
    (h : Stream .text ts) : Stream (.params named depth) (.paramsClose :: ts)
  | opened {depth : Nat} {ts : List Token} (h : Stream .text ts) :
    Stream (.params true depth) (.paramsClose :: .bodyStart :: ts)

theorem startsRaw_consRaw (a : String) (ts : List Token) : StartsRaw (consRaw a ts) := by
  unfold consRaw
  split <;> trivial

theorem head_of_consRaw {a s : String} {ts us : List Token} (h : consRaw a ts = .raw s :: us) (ha : a ≠ "") :
    s.toList.head? = a.toList.head? := by
  unfold consRaw at h
  split at h
  · next b ts =>
    obtain rfl : a ++ b = s := Token.raw.inj (List.cons.inj h).1
    have hne : a.toList ≠ [] := fun he => ha (String.toList_eq_nil_iff.1 he)
    rw [String.toList_append, List.head?_append, List.head?_eq_some_head hne, Option.some_or]
  · obtain rfl : a = s := Token.raw.inj (List.cons.inj h).1
    rfl

theorem Stream.consRaw {a : String} {ts : List Token} (h : Stream .text ts) (ha : a ≠ "")
    (hend : a.toList.getLast? = some '\\' → StartsRaw ts ∨ ts = []) : Stream .text (Lexer.consRaw a ts) := by
  by_cases hraw : StartsRaw ts
  · cases h with
    | @raw s us hs hnext hlast h =>
      have hne : s.toList ≠ [] := fun he => hs (String.toList_eq_nil_iff.1 he)
      have hlast' : (a ++ s).toList.getLast? = s.toList.getLast? := by
        rw [String.toList_append, List.getLast?_append, List.getLast?_eq_some_getLast hne, Option.some_or]
      refine .raw (fun he => ?_) hnext (fun he => hlast (hlast' ▸ he)) h
      rw [String.append_eq_empty_iff] at he
      exact hs he.2
    | _ => exact hraw.elim
  · rw [consRaw_of_not hraw]
    exact .raw ha hraw (fun he => (hend he).resolve_left hraw) h

theorem startsRaw_of_scan {c : Char} {cs : List Char} {ts : List Token} (h : scan .text (c :: cs) = some ts)
    (hc : c ≠ '#') : StartsRaw ts := by
  rw [scan_cons rfl] at h
  obtain ⟨us, -, rfl⟩ := Option.map_eq_some_iff.1 h
  generalize hs : textStep c cs = s
  have hcases : TextStep c cs s := hs ▸ textStep_cases c cs
  cases hcases with
  | plain => exact startsRaw_consRaw _ us
  | escaped => exact startsRaw_consRaw _ us
  | backslash => exact startsRaw_consRaw _ us
  | indicator he => exact (hc he).elim
  | anonymous he => exact (hc he).elim
  | named he => exact (hc he).elim
  | otherwise he => exact (hc he).elim
  | keyword he => exact (hc he).elim

/-- A colon begins raw text only where it begins what is scanned. -/
theorem head_of_scan {cs : List Char} {s : String} {us : List Token}
    (h : scan .text cs = some (.raw s :: us)) (hs : s.toList.head? = some ':') : cs.head? = some ':' := by
  cases cs with
  | nil => rw [scan_text_nil] at h; cases h
  | cons c cs =>
    rw [scan_cons rfl] at h
    obtain ⟨ts, -, hput⟩ := Option.map_eq_some_iff.1 h
    generalize hstep : textStep c cs = step at hput
    have hcases : TextStep c cs step := hstep ▸ textStep_cases c cs
    have hraw : ∀ {a : String} {c : Char} {behind : List Char}, step = .one .text (some (.raw a)) c behind →
        a ≠ "" → a.toList.head? = some ':' := by
      rintro a c behind rfl ha
      rw [← head_of_consRaw hput ha]
      exact hs
    cases hcases with
    | plain =>
      have hhead := hraw rfl (by simp)
      rw [String.toList_ofList] at hhead
      exact hhead
    | escaped => exact absurd (hraw rfl (by decide)) (by decide)
    | backslash => exact absurd (hraw rfl (by decide)) (by decide)
    | indicator =>
      have hhead := hraw rfl (by simp)
      rw [String.toList_ofList] at hhead
      exact absurd hhead (by simp)
    | anonymous => cases hput
    | named => cases hput
    | otherwise => cases hput
    | keyword => cases hput

theorem ofList_ne_empty {cs : List Char} (h : cs ≠ []) : String.ofList cs ≠ "" := by
  rw [ne_eq, String.ofList_eq_empty_iff]
  exact h

theorem getLast?_ne {cs : List Char} {c : Char} (h : ∀ d ∈ cs, d ≠ c) : cs.getLast? ≠ some c :=
  fun he => h c (List.mem_of_getLast? he) rfl

theorem stream_of_scan {mode : Mode} {cs : List Char} {ts : List Token} (h : scan mode cs = some ts) :
    Stream mode ts := by
  induction mode, cs using cut.induct generalizing ts with
  | case1 mode =>
    rw [scan] at h
    split at h
    · next hmode =>
      subst hmode
      obtain rfl := Option.some.inj h
      exact .done
    · cases h
  | case2 mode c cs fault hs =>
    rw [scan, hs] at h
    cases h
  | case3 mode c cs s hs ih =>
    rw [scan_cons hs] at h
    obtain ⟨us, hus, rfl⟩ := Option.map_eq_some_iff.1 h
    have hrest := ih hus
    cases mode with
    | text =>
      have hcases : TextStep c cs s := Except.ok.inj hs ▸ textStep_cases c cs
      cases hcases with
      | plain hc hrun =>
        refine Stream.consRaw hrest (ofList_ne_empty (List.cons_ne_nil _ _)) fun hlast => ?_
        rw [String.toList_ofList] at hlast
        refine absurd hlast (getLast?_ne fun d hd => ?_)
        have hplain : isPlain d = true := by
          rcases List.mem_cons.1 hd with rfl | hd
          · exact hc
          · exact hrun d hd
        rintro rfl
        exact absurd hplain (by decide)
      | escaped => exact Stream.consRaw hrest (by decide) fun hlast => absurd hlast (by decide)
      | backslash hc hhead =>
        refine Stream.consRaw hrest (by decide) fun _ => ?_
        cases cs with
        | nil => exact .inr (Option.some.inj (scan_text_nil.symm.trans hus)).symm
        | cons d rest => exact .inl (startsRaw_of_scan hus fun he => hhead (congrArg some he))
      | indicator hc behind hpart =>
        refine Stream.consRaw hrest (ofList_ne_empty (List.cons_ne_nil _ _)) fun hlast => ?_
        rw [String.toList_ofList] at hlast
        refine absurd hlast (getLast?_ne fun d hd => ?_)
        rintro rfl
        rcases List.mem_cons.1 hd with hd | hd
        · exact absurd hd (by decide)
        · exact absurd (hpart _ hd) (by decide)
      | anonymous => exact .anonymous hrest
      | named _ hname => exact .tag (ofList_ne_empty hname) hrest
      | otherwise _ hname =>
        have hstream := Stream.otherwise hrest
        rw [← hname] at hstream
        exact hstream
      | keyword _ hname => exact .keyword hname hrest
    | params named depth =>
      cases paramStep_cases hs with
      | skip => exact hrest
      | token => exact .param _ hrest
      | close _ hcolon =>
        refine .close (fun hnamed s vs (hvs : us = _) hs => hcolon hnamed ?_) hrest
        exact head_of_scan (hvs ▸ hus) hs
      | opened hnamed =>
        subst hnamed
        exact .opened hrest

/-! ### What follows for the tokens -/

theorem Stream.notMem_nameless {mode : Mode} {ts : List Token} (h : Stream mode ts) : .tag "" ∉ ts := by
  induction h with
  | done => exact List.not_mem_nil
  | tag hname _ ih => simp [ih, Ne.symm hname]
  | @keyword name ts hname _ ih =>
    have hne : name ≠ "" := by
      rintro rfl
      exact absurd hname (by decide)
    simp [ih, Ne.symm hne]
  | _ => simp_all

/-- Raw text with another token behind it: the other is not raw, and the text does not end in a
backslash. -/
def Apart (t u : Token) : Prop :=
  ∀ s, t = .raw s → ¬ StartsRaw [u] ∧ s.toList.getLast? ≠ some '\\'

theorem apart_of_not {t : Token} (h : ¬ StartsRaw [t]) (u : Token) : Apart t u := by
  rintro s rfl
  exact (h trivial).elim

theorem Stream.isChain_apart {mode : Mode} {ts : List Token} (h : Stream mode ts) : ts.IsChain Apart := by
  have hcons : ∀ {t : Token} {ts : List Token}, ¬ StartsRaw [t] → ts.IsChain Apart → (t :: ts).IsChain Apart :=
    fun hraw h => List.isChain_cons.2 ⟨fun u _ => apart_of_not hraw u, h⟩
  induction h with
  | done => exact .nil
  | @raw s ts _ hraw hend _ ih =>
    refine List.isChain_cons.2 ⟨fun u hu r hr => ?_, ih⟩
    obtain rfl := Token.raw.inj hr
    obtain ⟨us, rfl⟩ := List.head?_eq_some_iff.1 hu
    refine ⟨?_, fun hlast => List.cons_ne_nil _ _ (hend hlast)⟩
    cases u with
    | raw => exact absurd trivial hraw
    | _ => exact id
  | tag _ _ ih => exact hcons id (hcons id ih)
  | anonymous _ ih => exact hcons id ih
  | keyword _ _ ih => exact hcons id ih
  | otherwise _ ih => exact hcons id (hcons id ih)
  | param _ _ ih => exact hcons id ih
  | close _ _ ih => exact hcons id ih
  | opened _ ih => exact hcons id (hcons id ih)

/-- Behind the parameters of a tag that may have a body, no raw text begins with the colon that would
open it. -/
def ColonsOpen (ts : List Token) : Prop :=
  ∀ (before : List Token) (name : String) (params : List Token) (s : String) (after : List Token),
    ts = before ++ .tag name :: .paramsOpen :: (params ++ .paramsClose :: .raw s :: after) →
      isKeywordTag name = false → (∀ t ∈ params, ∃ p, t = .param p) → s.toList.head? ≠ some ':'

theorem Stream.head_of_params {depth : Nat} {params after : List Token} {s : String}
    (hparams : ∀ t ∈ params, ∃ p, t = .param p)
    (h : Stream (.params true depth) (params ++ .paramsClose :: .raw s :: after)) :
    s.toList.head? ≠ some ':' := by
  induction params generalizing depth with
  | nil =>
    cases h with
    | close hcolon => exact hcolon rfl s after rfl
  | cons t params ih =>
    obtain ⟨⟨p, rfl⟩, hrest⟩ := List.forall_mem_cons.1 hparams
    cases h with
    | param _ h => exact ih hrest h

theorem Stream.colonsOpen {mode : Mode} {ts : List Token} (h : Stream mode ts) : ColonsOpen ts := by
  -- an earlier token is dropped; the tag itself comes first only where the stream has it with parameters
  have hcons : ∀ {t : Token} {ts : List Token}, (∀ name, t = .tag name → isKeywordTag name = true) →
      ColonsOpen ts → ColonsOpen (t :: ts) := by
    intro t ts hkeyword h before name params s after hts hname
    cases before with
    | nil =>
      have hname' := hkeyword name (List.cons.inj hts).1
      rw [hname] at hname'
      cases hname'
    | cons u before => exact h before name params s after (List.cons.inj hts).2 hname
  have hother : ∀ {t : Token} {ts : List Token}, (∀ name, t ≠ .tag name) → ColonsOpen ts →
      ColonsOpen (t :: ts) := fun ht => hcons fun name he => absurd he (ht name)
  induction h with
  | done =>
    intro before name params s after hts
    exact absurd hts (by simp)
  | raw _ _ _ _ ih => exact hother (fun _ => Token.noConfusion) ih
  | @tag name ts _ h ih =>
    intro before other params s after hts hname hparams
    cases before with
    | nil =>
      obtain rfl := (List.cons.inj (List.cons.inj hts).2).2
      exact h.head_of_params hparams
    | cons u before =>
      have hrest : ColonsOpen (.paramsOpen :: ts) := hother (fun _ => Token.noConfusion) ih
      exact hrest before other params s after (List.cons.inj hts).2 hname hparams
  | anonymous _ ih => exact hother (fun _ => Token.noConfusion) ih
  | keyword hname _ ih => exact hcons (fun _ he => Token.tag.inj he ▸ hname) ih
  | otherwise _ ih =>
    have hbody := @hother .bodyStart _ (fun _ => Token.noConfusion) ih
    exact hcons (fun _ he => Token.tag.inj he ▸ by decide) hbody
  | param _ _ ih => exact hother (fun _ => Token.noConfusion) ih
  | close _ _ ih => exact hother (fun _ => Token.noConfusion) ih
  | opened _ ih =>
    have hbody := @hother .bodyStart _ (fun _ => Token.noConfusion) ih
    exact hother (fun _ => Token.noConfusion) hbody

theorem ColonsOpen.within {ts us : List Token} (h : ColonsOpen ts) (hus : us <:+: ts) : ColonsOpen us := by
  intro before name params s after heq
  obtain ⟨front, back, rfl⟩ := hus
  refine h (front ++ before) name params s (after ++ back) ?_
  rw [heq]
  simp

/-- What holds of the tokens of every text, and so of those in between. -/
structure Tidy (ts : List Token) : Prop where
  apart : ts.IsChain Apart
  colons : ColonsOpen ts

theorem Stream.tidy {mode : Mode} {ts : List Token} (h : Stream mode ts) : Tidy ts :=
  ⟨h.isChain_apart, h.colonsOpen⟩

theorem Tidy.within {ts us : List Token} (h : Tidy ts) (hus : us <:+: ts) : Tidy us := by
  have hapart : us.IsChain Apart := List.IsChain.infix h.apart hus
  exact ⟨hapart, h.colons.within hus⟩

end Lexer

end Templating
