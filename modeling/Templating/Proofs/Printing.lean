import Templating.Proofs.Operations
import Templating.Proofs.Scanning
import Templating.Proofs.Sources

/-!
# Scanned sources of expressions

Each piece of a source, in front of any text that does not lengthen its last token, is scanned to its
tokens and then the text. What is put between the pieces of an expression never lengthens a token.
-/

namespace Templating

namespace Lexer

open Text

/-! ### One token -/

/-- Tokens in front of those of a text. -/
def inFront (ts : List Token) (r : Option (List Token)) : Option (List Token) := r.map (ts ++ ·)

@[simp] theorem inFront_nil (r : Option (List Token)) : inFront [] r = r := by cases r <;> rfl

theorem inFront_inFront (ts us : List Token) (r : Option (List Token)) :
    inFront ts (inFront us r) = inFront (ts ++ us) r := by
  cases r with
  | none => rfl
  | some vs => exact congrArg some (List.append_assoc ts us vs).symm

theorem scan_one {mode mode' : Mode} {c : Char} {behind rest : List Char} {token : Option Token}
    (h : step mode c (behind ++ rest) = .ok (.one mode' token c behind)) :
    scan mode (c :: (behind ++ rest)) = (scan mode' rest).map (put token) := by
  have hdrop : (behind ++ rest).drop behind.length = rest := List.drop_left
  rw [scan_cons h]
  show (scan mode' ((behind ++ rest).drop behind.length)).map _ = _
  rw [hdrop]
  rfl

/-- No more of a text satisfies `p` at its front. -/
def StopsAt (p : Char → Bool) (cs : List Char) : Prop := ∀ c ∈ cs.head?, p c = false

theorem stopsAt_cons {p : Char → Bool} {c : Char} {cs : List Char} (h : p c = false) : StopsAt p (c :: cs) :=
  fun _ hd => Option.some.inj hd ▸ h

theorem takeWhile_append_of_stopsAt {p : Char → Bool} {cs rest : List Char} (h : ∀ c ∈ cs, p c = true)
    (hrest : StopsAt p rest) : (cs ++ rest).takeWhile p = cs := by
  rw [List.takeWhile_append_of_pos h]
  cases rest with
  | nil => simp
  | cons c rest =>
    rw [List.takeWhile_cons_of_neg (by rw [hrest c rfl]; exact Bool.false_ne_true), List.append_nil]

theorem dropWhile_append_of_stopsAt {p : Char → Bool} {cs rest : List Char} (h : ∀ c ∈ cs, p c = true)
    (hrest : StopsAt p rest) : (cs ++ rest).dropWhile p = rest := by
  rw [List.dropWhile_append_of_pos h]
  cases rest with
  | nil => rfl
  | cons c rest => rw [List.dropWhile_cons_of_neg (by rw [hrest c rfl]; exact Bool.false_ne_true)]

section Params

variable {named : Bool} {depth : Nat}

theorem scan_parenOpen (cs : List Char) :
    scan (.params named depth) ('(' :: cs) =
      inFront [.param .parenOpen] (scan (.params named (depth + 1)) cs) :=
  @scan_one _ _ '(' [] cs (some (.param .parenOpen)) rfl

theorem scan_parenClose (cs : List Char) :
    scan (.params named (depth + 1)) (')' :: cs) =
      inFront [.param .parenClose] (scan (.params named depth) cs) :=
  @scan_one _ _ ')' [] cs (some (.param .parenClose)) rfl

theorem scan_comma (cs : List Char) :
    scan (.params named depth) (',' :: cs) = inFront [.param .comma] (scan (.params named depth) cs) :=
  @scan_one _ _ ',' [] cs (some (.param .comma)) rfl

theorem scan_dot (cs : List Char) :
    scan (.params named depth) ('.' :: cs) = inFront [.param .dot] (scan (.params named depth) cs) :=
  @scan_one _ _ '.' [] cs (some (.param .dot)) rfl

theorem scan_blank (cs : List Char) :
    scan (.params named depth) (' ' :: cs) = scan (.params named depth) cs := by
  have hskip : ∀ (c : Char) (cs : List Char), isParamBlank c = true →
      scan (.params named depth) (c :: cs) = scan (.params named depth) (cs.dropWhile isParamBlank) := by
    intro c cs hc
    have hstep : step (.params named depth) c (cs.takeWhile isParamBlank ++ cs.dropWhile isParamBlank) =
        .ok (.one (.params named depth) none c (cs.takeWhile isParamBlank)) := by
      rw [List.takeWhile_append_dropWhile]
      exact if_pos hc
    have hscan := scan_one hstep
    rw [List.takeWhile_append_dropWhile] at hscan
    exact hscan.trans (by rw [show put none = id from rfl, Option.map_id, id])
  rw [hskip ' ' cs rfl]
  cases cs with
  | nil => rfl
  | cons c cs =>
    by_cases hc : isParamBlank c = true
    · rw [List.dropWhile_cons_of_pos hc, hskip c cs hc]
    · rw [List.dropWhile_cons_of_neg hc]

theorem isDigit_of_isNameStart {c : Char} (hc : isNameStart c = true) : c.isDigit = false := by
  rw [isNameStart, Bool.or_eq_true, beq_iff_eq] at hc
  rcases hc with h | rfl
  · rw [Bool.eq_false_iff]
    intro hd
    change (decide (c.val ≥ '0'.val) && decide (c.val ≤ '9'.val)) = true at hd
    change (decide (c.val ≥ 'A'.val ∧ c.val ≤ 'Z'.val) ||
      decide (c.val ≥ 'a'.val) && decide (c.val ≤ 'z'.val)) = true at h
    simp only [Bool.or_eq_true, Bool.and_eq_true, decide_eq_true_eq, ge_iff_le, UInt32.le_iff_toNat_le] at h hd
    have hupper : 'A'.val.toNat = 65 := rfl
    have hlower : 'a'.val.toNat = 97 := rfl
    have hnine : '9'.val.toNat = 57 := rfl
    omega
  · decide

theorem paramStep_of_isNameStart {c : Char} (hc : isNameStart c = true) (cs : List Char) :
    paramStep named depth c cs = tokenStep (.params named depth)
      (nameToken (String.ofList (c :: cs.takeWhile isNamePart))) c (cs.takeWhile isNamePart) := by
  have hne : ∀ d, isNameStart d = false → c ≠ d := by
    rintro d hd rfl
    rw [hc] at hd
    cases hd
  have hblank : isParamBlank c = false := by
    simp [isParamBlank, hne ' ' (by decide), hne '\t' (by decide), hne '\n' (by decide), hne '\r' (by decide)]
  have hdigit := isDigit_of_isNameStart hc
  unfold paramStep
  simp only [hblank, hdigit, hc, hne '(' (by decide), hne ')' (by decide), hne ',' (by decide),
    hne '.' (by decide), hne '"' (by decide), if_true, if_false, Bool.false_eq_true]

theorem scan_word {name : String} (hname : IsName name) {rest : List Char} (hrest : StopsAt isNamePart rest) :
    scan (.params named depth) (name.toList ++ rest) =
      inFront [.param (nameToken name)] (scan (.params named depth) rest) := by
  obtain ⟨c, cs, hcs, hstart, hpart⟩ := hname
  have hstep : step (.params named depth) c (cs ++ rest) =
      .ok (.one (.params named depth) (some (.param (nameToken name))) c cs) := by
    have hofList : String.ofList (c :: cs) = name := by rw [← hcs, String.ofList_toList]
    show paramStep named depth c (cs ++ rest) = _
    rw [paramStep_of_isNameStart hstart, takeWhile_append_of_stopsAt hpart hrest, hofList]
    rfl
  rw [hcs, List.cons_append]
  exact scan_one hstep

theorem scan_identifier {name : String} (hname : IsIdentifier name) {rest : List Char}
    (hrest : StopsAt isNamePart rest) :
    scan (.params named depth) (name.toList ++ rest) =
      inFront [.param (.ident name)] (scan (.params named depth) rest) := by
  have htoken : nameToken name = .ident name := by
    simp only [nameToken, hname.ne_true, hname.ne_false, hname.ne_in, if_false]
  rw [scan_word hname.isName hrest, htoken]

theorem paramStep_of_isDigit {c : Char} (hc : c.isDigit = true) (cs : List Char) :
    paramStep named depth c cs = numberStep (.params named depth) c cs := by
  have hne : ∀ d : Char, d.isDigit = false → c ≠ d := by
    rintro d hd rfl
    rw [hc] at hd
    cases hd
  have hblank : isParamBlank c = false := by
    simp [isParamBlank, hne ' ' (by decide), hne '\t' (by decide), hne '\n' (by decide), hne '\r' (by decide)]
  unfold paramStep
  simp only [hblank, hc, hne '(' (by decide), hne ')' (by decide), hne ',' (by decide),
    hne '.' (by decide), hne '"' (by decide), if_true, if_false, Bool.false_eq_true]

theorem decimal_toDigits (n : Nat) : decimal (Nat.toDigits 10 n) = n := by
  have hfold : ∀ (cs : List Char) (m : Nat),
      cs.foldl (fun n d => n * 10 + (d.toNat - 48)) m = Nat.ofDigitChars 10 cs m := by
    intro cs m
    simp only [Nat.ofDigitChars, Nat.mul_comm]
    rfl
  exact (hfold _ 0).trans (Nat.ofDigitChars_toDigits (by decide) (by decide))

theorem scan_int {n : Nat} (hn : n < Nat.pow 2 63) {rest : List Char} (hrest : StopsAt Char.isDigit rest)
    (hdot : rest.head? ≠ some '.') :
    scan (.params named depth) ((toString n).toList ++ rest) =
      inFront [.param (.int n)] (scan (.params named depth) rest) := by
  have hdigits : (toString n).toList = Nat.toDigits 10 n := Nat.toList_repr
  obtain ⟨c, cs, hcs⟩ : ∃ c cs, Nat.toDigits 10 n = c :: cs :=
    List.exists_cons_of_ne_nil (Nat.toDigits_ne_nil)
  have hall : ∀ d ∈ c :: cs, d.isDigit = true := fun d hd =>
    Nat.isDigit_of_mem_toDigits (by decide) (by decide) (hcs ▸ hd)
  obtain ⟨hc, hcs'⟩ := List.forall_mem_cons.1 hall
  have hvalue : decimal (c :: cs) = n := hcs ▸ decimal_toDigits n
  have hstep : step (.params named depth) c (cs ++ rest) =
      .ok (.one (.params named depth) (some (.param (.int n))) c cs) := by
    show paramStep named depth c (cs ++ rest) = _
    rw [paramStep_of_isDigit hc]
    unfold numberStep
    rw [takeWhile_append_of_stopsAt hcs' hrest, dropWhile_append_of_stopsAt hcs' hrest]
    dsimp only
    rw [hvalue]
    split
    · next more => exact absurd rfl hdot
    · rw [if_pos hn]
      rfl
  rw [hdigits, hcs, List.cons_append]
  exact scan_one hstep

/-! ### Texts -/

theorem stringChars_escaped (cs rest : List Char) :
    stringChars (escaped cs ++ '"' :: rest) = .ok (escaped cs ++ ['"']) := by
  induction cs with
  | nil => rfl
  | cons c cs ih =>
    rw [escaped, List.flatMap_cons, ← escaped, List.append_assoc, List.append_assoc]
    split
    · next h =>
      have hline : c ≠ '\n' := by rcases h with rfl | rfl <;> decide
      simp only [List.cons_append, List.nil_append, stringChars, if_neg hline, ih]
    · next h =>
      obtain ⟨hquote, hback⟩ := not_or.1 h
      rw [List.cons_append, List.nil_append, stringChars.eq_4 _ _ hquote
        (fun _ _ hc => (hback hc).elim) (fun hc => (hback hc).elim), ih]
      rfl

theorem unescape_escaped (cs : List Char) : unescape (escaped cs ++ ['"']) = cs := by
  induction cs with
  | nil => rfl
  | cons c cs ih =>
    rw [escaped, List.flatMap_cons, ← escaped, List.append_assoc]
    split
    · next h =>
      have hne : ∀ d, d ≠ '"' → d ≠ '\\' → c ≠ d := by
        rintro d hq hb rfl
        exact h.elim hq hb
      rw [List.cons_append, List.cons_append, List.nil_append, unescape.eq_5 _ _ (hne 'n' (by decide) (by decide))
        (hne 't' (by decide) (by decide)) (hne 'r' (by decide) (by decide)), ih]
    · next h =>
      obtain ⟨hquote, hback⟩ := not_or.1 h
      rw [List.cons_append, List.nil_append, unescape.eq_6 _ _ hquote (fun _ hc => (hback hc).elim)
        (fun _ hc => (hback hc).elim) (fun _ hc => (hback hc).elim) (fun _ _ hc => (hback hc).elim), ih]

theorem toList_literal (s : String) : (Text.literal s).toList = '"' :: (escaped s.toList ++ ['"']) := by
  simp [Text.literal]

theorem step_literal (s : String) (rest : List Char) :
    step (.params named depth) '"' ((escaped s.toList ++ ['"']) ++ rest) =
      .ok (.one (.params named depth) (some (.param (.text s))) '"' (escaped s.toList ++ ['"'])) := by
  show stringStep (.params named depth) ((escaped s.toList ++ ['"']) ++ rest) = _
  unfold stringStep
  rw [List.append_assoc, List.singleton_append, stringChars_escaped]
  dsimp only
  rw [unescape_escaped, String.ofList_toList]
  rfl

theorem scan_text (s : String) (rest : List Char) :
    scan (.params named depth) ((Text.literal s).toList ++ rest) =
      inFront [.param (.text s)] (scan (.params named depth) rest) := by
  rw [toList_literal, List.cons_append]
  exact scan_one (step_literal s rest)

/-! ### Operators -/

theorem scan_binary (op : BinaryOp) (cs : List Char) :
    scan (.params named depth) (op.symbol.toList ++ ' ' :: cs) =
      inFront [op.token] (scan (.params named depth) (' ' :: cs)) := by
  have hone : ∀ (c : Char) (behind : List Char), op.symbol.toList = c :: behind →
      step (.params named depth) c (behind ++ ' ' :: cs) =
        .ok (.one (.params named depth) (some op.token) c behind) →
      scan (.params named depth) (op.symbol.toList ++ ' ' :: cs) =
        inFront [op.token] (scan (.params named depth) (' ' :: cs)) := by
    intro c behind hsymbol hstep
    rw [hsymbol]
    exact scan_one hstep
  cases op with
  | add => exact hone '+' [] rfl rfl
  | subtract => exact hone '-' [] rfl rfl
  | multiply => exact hone '*' [] rfl rfl
  | divide => exact hone '/' [] rfl rfl
  | modulo => exact hone '%' [] rfl rfl
  | equal => exact hone '=' ['='] rfl rfl
  | notEqual => exact hone '!' ['='] rfl rfl
  | less => exact hone '<' [] rfl rfl
  | lessOrEqual => exact hone '<' ['='] rfl rfl
  | greater => exact hone '>' [] rfl rfl
  | greaterOrEqual => exact hone '>' ['='] rfl rfl
  | and => exact hone '&' ['&'] rfl rfl
  | or => exact hone '|' ['|'] rfl rfl

theorem scan_unary (op : UnaryOp) {cs : List Char} (hcs : cs.head? ≠ some '=') :
    scan (.params named depth) (op.symbol.toList ++ cs) =
      inFront [op.token] (scan (.params named depth) cs) := by
  cases op with
  | not =>
    have hstep : step (.params named depth) '!' cs =
        .ok (.one (.params named depth) (some (.param .not)) '!' []) := by
      cases cs with
      | nil => rfl
      | cons c cs =>
        have hc : c ≠ '=' := fun he => hcs (congrArg some he)
        show operatorStep (.params named depth) '!' (c :: cs) = _
        unfold operatorStep
        dsimp only
        split <;> simp_all [tokenStep]
    exact @scan_one _ _ '!' [] _ _ hstep
  | negate =>
    have hstep : step (.params named depth) '-' cs =
        .ok (.one (.params named depth) (some (.param (.operator .subtract))) '-' []) := rfl
    exact @scan_one _ _ '-' [] _ _ hstep

end Params

/-! ### Expressions -/

/-- What may stand behind an expression. -/
def Delimited (cs : List Char) : Prop := ∃ c ∈ cs.head?, c = ')' ∨ c = ',' ∨ c = ' '

theorem Delimited.stopsAt {p : Char → Bool} {cs : List Char} (h : Delimited cs) (hclose : p ')' = false)
    (hcomma : p ',' = false) (hblank : p ' ' = false) : StopsAt p cs := by
  obtain ⟨c, hc, hkind⟩ := h
  intro d hd
  obtain rfl : c = d := Option.some.inj (hc.symm.trans hd)
  rcases hkind with rfl | rfl | rfl
  · exact hclose
  · exact hcomma
  · exact hblank

/-- Some tokens spell an expression, and its source is scanned to them wherever it may stand. -/
structure Prints (e : Expr) (ts : List Token) : Prop where
  spells : Grammar.SpellsAt 1 ts e
  scans : ∀ (named : Bool) (depth : Nat) (rest : List Char), Delimited rest →
    scan (.params named depth) (e.source.toList ++ rest) = inFront ts (scan (.params named depth) rest)

theorem prints_bool (b : Bool) : Prints (.literal (.bool b)) [(Literal.bool b).token] := by
  refine ⟨.operand (.literal _), fun named depth rest hrest => ?_⟩
  have hstop : StopsAt isNamePart rest := hrest.stopsAt (by decide) (by decide) (by decide)
  cases b with
  | false => exact @scan_word _ _ "false" (by decide) _ hstop
  | true => exact @scan_word _ _ "true" (by decide) _ hstop

theorem prints_int {n : Nat} (hn : n < Nat.pow 2 63) :
    Prints (.literal (.int n)) [(Literal.int n).token] := by
  refine ⟨.operand (.literal _), fun named depth rest hrest => ?_⟩
  have hdot : StopsAt (· == '.') rest := hrest.stopsAt (by decide) (by decide) (by decide)
  refine scan_int hn (hrest.stopsAt (by decide) (by decide) (by decide)) fun hhead => ?_
  exact absurd (hdot '.' hhead) (by decide)

theorem prints_text (s : String) : Prints (.literal (.text s)) [(Literal.text s).token] := by
  refine ⟨.operand (.literal _), fun named depth rest _ => ?_⟩
  rw [Expr.source]
  exact scan_text s rest

theorem toList_intercalate_cons (c : Char) (s : String) (more : List String) :
    ((String.singleton c).intercalate (s :: more)).toList =
      s.toList ++ more.flatMap fun next => c :: next.toList := by
  rw [String.toList_intercalate, List.map_cons, String.toList_singleton, intercalate_cons, List.flatMap_map]

theorem prints_path {first : String} {rest : List String} (hfirst : IsIdentifier first)
    (hrest : ∀ key ∈ rest, IsIdentifier key) :
    Prints (.path first rest)
      (.param (.ident first) :: rest.flatMap fun key => [.param .dot, .param (.ident key)]) := by
  refine ⟨.operand (.path first rest), fun named depth behind hbehind => ?_⟩
  have hstop : StopsAt isNamePart behind := hbehind.stopsAt (by decide) (by decide) (by decide)
  have hkeys : ∀ keys : List String, (∀ key ∈ keys, IsIdentifier key) →
      StopsAt isNamePart ((keys.flatMap fun next => '.' :: next.toList) ++ behind) ∧
        scan (.params named depth) ((keys.flatMap fun next => '.' :: next.toList) ++ behind) =
          inFront (keys.flatMap fun key => [.param .dot, .param (.ident key)])
            (scan (.params named depth) behind) := by
    intro keys h
    induction keys with
    | nil => exact ⟨hstop, (inFront_nil _).symm⟩
    | cons key keys ih =>
      obtain ⟨hkey, hmore⟩ := List.forall_mem_cons.1 h
      obtain ⟨hnext, hscan⟩ := ih hmore
      refine ⟨stopsAt_cons (by decide), ?_⟩
      rw [List.flatMap_cons, List.flatMap_cons, List.cons_append, List.cons_append, scan_dot, List.append_assoc,
        scan_identifier hkey hnext, hscan, inFront_inFront, inFront_inFront]
      rfl
  obtain ⟨hnext, hscan⟩ := hkeys rest hrest
  have hsource : (Expr.path first rest).source.toList =
      first.toList ++ rest.flatMap fun next => '.' :: next.toList := toList_intercalate_cons '.' first rest
  rw [hsource, List.append_assoc, scan_identifier hfirst hnext, hscan, inFront_inFront]
  rfl

/-- No source of an expression makes an exclamation mark before it an inequality. -/
theorem head_source {e : Expr} (h : e.Readable) (rest : List Char) :
    (e.source.toList ++ rest).head? ≠ some '=' := by
  have hname : ∀ {name : String} (more : List Char), IsName name →
      (name.toList ++ more).head? ≠ some '=' := by
    rintro name more ⟨c, cs, hcs, hstart, -⟩ hhead
    rw [hcs] at hhead
    obtain rfl := Option.some.inj hhead
    exact absurd hstart (by decide)
  cases h with
  | bool b =>
    have hdisplay : (Expr.literal (.bool b)).source = (if b then "true" else "false") := rfl
    rw [hdisplay]
    cases b <;> exact fun hhead => absurd (Option.some.inj hhead) (by decide)
  | @int n =>
    have hdigits : (Expr.literal (.int n)).source.toList = Nat.toDigits 10 n := Nat.toList_repr
    obtain ⟨c, cs, hcs⟩ := List.exists_cons_of_ne_nil (@Nat.toDigits_ne_nil n 10)
    rw [hdigits, hcs]
    intro hhead
    obtain rfl := Option.some.inj hhead
    have hdigit : '='.isDigit = true :=
      @Nat.isDigit_of_mem_toDigits 10 n _ (by decide) (by decide) (hcs ▸ List.mem_cons_self)
    exact absurd hdigit (by decide)
  | text s =>
    rw [Expr.source, toList_literal]
    exact fun hhead => absurd (Option.some.inj hhead) (by decide)
  | @path first keys hfirst _ =>
    have hsource : (Expr.path first keys).source.toList =
        first.toList ++ keys.flatMap fun next => '.' :: next.toList := toList_intercalate_cons '.' first keys
    rw [hsource, List.append_assoc]
    exact hname _ hfirst.isName
  | unary op _ =>
    rw [Expr.source, String.toList_append]
    cases op <;> exact fun hhead => absurd (Option.some.inj hhead) (by decide)
  | binary op _ _ =>
    rw [Expr.source]
    simp only [String.toList_append]
    exact fun hhead => absurd (Option.some.inj hhead) (by decide)
  | call hcall _ =>
    rw [Expr.source]
    simp only [String.toList_append, List.append_assoc]
    exact hname _ hcall.isName

theorem prints_unary {op : UnaryOp} {e : Expr} {ts : List Token} (he : e.Readable) (h : Prints e ts) :
    Prints (.unary op e) (op.token :: ts) := by
  refine ⟨.signed op h.spells, fun named depth rest hrest => ?_⟩
  rw [Expr.source, String.toList_append, List.append_assoc, scan_unary op (head_source he rest),
    h.scans named depth rest hrest, inFront_inFront]
  rfl

theorem prints_binary {op : BinaryOp} {lhs rhs : Expr} {ts us : List Token} (hl : Prints lhs ts)
    (hr : Prints rhs us) :
    Prints (.binary op lhs rhs) (.param .parenOpen :: (ts ++ op.token :: us ++ [.param .parenClose])) := by
  have hlevel := Grammar.level_lt op
  have hbinary : Grammar.SpellsAt 7 (ts ++ op.token :: us) (.binary op lhs rhs) := by
    have hwhole : Grammar.SpellsAt (op.level + 1 + 1) (ts ++ op.token :: us) (.binary op lhs rhs) :=
      .binary rfl (hl.spells.lift (Nat.zero_le _) (by omega)) (hr.spells.lift (Nat.zero_le _) (by omega))
    exact @Grammar.SpellsAt.lift _ 6 _ _ hwhole (by omega) (by decide)
  refine ⟨.operand (.parenthesised hbinary), fun named depth rest _ => ?_⟩
  have hsource : (Expr.binary op lhs rhs).source.toList ++ rest =
      '(' :: (lhs.source.toList ++ ' ' :: (op.symbol.toList ++ ' ' :: (rhs.source.toList ++ ')' :: rest))) := by
    simp [Expr.source]
  rw [hsource, scan_parenOpen, hl.scans named (depth + 1) _ ⟨' ', rfl, .inr (.inr rfl)⟩, scan_blank, scan_binary,
    scan_blank, hr.scans named (depth + 1) _ ⟨')', rfl, .inl rfl⟩, scan_parenClose]
  simp only [inFront_inFront, List.cons_append, List.nil_append, List.append_assoc]

theorem scan_separator {named : Bool} {depth : Nat} (cs : List Char) :
    scan (.params named depth) (", ".toList ++ cs) = inFront [.param .comma] (scan (.params named depth) cs) :=
  (scan_comma (' ' :: cs)).trans (congrArg _ (scan_blank cs))

/-- Expressions with tokens that they are printed to. -/
abbrev Printed := List Token × Expr

theorem scan_arguments {named : Bool} {depth : Nat} {items : List Printed}
    (h : ∀ item ∈ items, Prints item.2 item.1) (rest : List Char) :
    scan (.params named depth) ((Expr.sourceList (items.map Prod.snd)).toList ++ ')' :: rest) =
      inFront ([.param .comma].intercalate (items.map Prod.fst)) (scan (.params named depth) (')' :: rest)) := by
  rw [Expr.sourceList, Expr.sourceAll_eq, String.toList_intercalate]
  induction items with
  | nil => exact (inFront_nil _).symm
  | cons item items ih =>
    obtain ⟨hitem, hitems⟩ := List.forall_mem_cons.1 h
    cases items with
    | nil =>
      simpa [List.intercalate] using hitem.scans named depth (')' :: rest) ⟨')', rfl, .inl rfl⟩
    | cons next items =>
      have hmore := ih hitems
      simp only [List.map_cons] at hmore ⊢
      rw [List.intercalate_cons_cons, List.intercalate_cons_cons, List.append_assoc, List.append_assoc,
        hitem.scans named depth _ ⟨',', rfl, .inr (.inl rfl)⟩,
        scan_separator, hmore, inFront_inFront, inFront_inFront, List.append_assoc]

theorem exists_printed {es : List Expr} (h : ∀ e ∈ es, ∃ ts, Prints e ts) :
    ∃ items : List Printed, items.map Prod.snd = es ∧ ∀ item ∈ items, Prints item.2 item.1 := by
  induction es with
  | nil => exact ⟨[], rfl, fun _ hm => absurd hm List.not_mem_nil⟩
  | cons e es ih =>
    obtain ⟨⟨ts, hts⟩, hes⟩ := List.forall_mem_cons.1 h
    obtain ⟨items, rfl, hitems⟩ := ih hes
    exact ⟨(ts, e) :: items, rfl, List.forall_mem_cons.2 ⟨hts, hitems⟩⟩

theorem prints_call {name : String} (hname : IsIdentifier name) {items : List Printed}
    (h : ∀ item ∈ items, Prints item.2 item.1) :
    Prints (.call name (items.map Prod.snd)) (.param (.ident name) :: .param .parenOpen ::
      ([.param .comma].intercalate (items.map Prod.fst) ++ [.param .parenClose])) := by
  have hspells : ∀ item ∈ items, Grammar.SpellsAt 7 item.1 item.2 :=
    fun item hm => (h item hm).spells.lift (Nat.zero_le 6) (by decide)
  refine ⟨.operand (.call name hspells), fun named depth rest _ => ?_⟩
  have hsource : (Expr.call name (items.map Prod.snd)).source.toList ++ rest =
      name.toList ++ '(' :: ((Expr.sourceList (items.map Prod.snd)).toList ++ ')' :: rest) := by
    simp [Expr.source, Expr.sourceList]
  rw [hsource, scan_identifier hname (stopsAt_cons (by decide)), scan_parenOpen,
    scan_arguments h, scan_parenClose]
  simp only [inFront_inFront, List.cons_append, List.nil_append]

theorem exists_prints {e : Expr} (h : e.Readable) : ∃ ts, Prints e ts := by
  induction h with
  | bool b => exact ⟨_, prints_bool b⟩
  | int hn => exact ⟨_, prints_int hn⟩
  | text s => exact ⟨_, prints_text s⟩
  | path hfirst hrest => exact ⟨_, prints_path hfirst hrest⟩
  | unary op he ih =>
    obtain ⟨ts, hts⟩ := ih
    exact ⟨_, prints_unary he hts⟩
  | binary op _ _ ihl ihr =>
    obtain ⟨ts, hts⟩ := ihl
    obtain ⟨us, hus⟩ := ihr
    exact ⟨_, prints_binary hts hus⟩
  | call hname _ ih =>
    obtain ⟨items, rfl, hitems⟩ := exists_printed ih
    exact ⟨_, prints_call hname hitems⟩

end Lexer

end Templating
