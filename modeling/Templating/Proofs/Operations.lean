import Templating.Grammar.Expression
import Templating.Proofs.Reading

/-!
# Spelled expressions

Which tokens spell an expression, level by level: atoms, operands with their signs, and the six levels
of binary operations, each of which associates to the left. The reader of expressions takes exactly
what is spelled, as long as no token follows that could make the expression longer.
-/

namespace Templating

def Literal.token : Literal → Token
  | .bool b => .param (if b then .true else .false)
  | .int n => .param (.int n)
  | .float x => .param (.float x)
  | .text s => .param (.text s)

def UnaryOp.token : UnaryOp → Token
  | .not => .param .not
  | .negate => .param (.operator .subtract)

def BinaryOp.token (op : BinaryOp) : Token := .param (.operator op)

/-- How tightly an operation binds; the tightest have level zero. -/
def BinaryOp.level : BinaryOp → Nat
  | .multiply | .divide | .modulo => 0
  | .add | .subtract => 1
  | .less | .lessOrEqual | .greater | .greaterOrEqual => 2
  | .equal | .notEqual => 3
  | .and => 4
  | .or => 5

namespace Grammar

open Reader

/-- The tokens that spell an expression: at level 0 atoms, at level 1 operands with signs in front, and
two above the level of an operation what may be its left operand, up to whole expressions at level 7. -/
inductive SpellsAt : Nat → List Token → Expr → Prop where
  | literal (value : Literal) : SpellsAt 0 [value.token] (.literal value)
  | path (first : String) (rest : List String) :
    SpellsAt 0 (.param (.ident first) :: rest.flatMap fun key => [.param .dot, .param (.ident key)])
      (.path first rest)
  | call (name : String) {args : List (List Token × Expr)} (h : ∀ arg ∈ args, SpellsAt 7 arg.1 arg.2) :
    SpellsAt 0 (.param (.ident name) :: .param .parenOpen ::
      ([.param .comma].intercalate (args.map Prod.fst) ++ [.param .parenClose]))
      (.call name (args.map Prod.snd))
  | parenthesised {ts : List Token} {e : Expr} (h : SpellsAt 7 ts e) :
    SpellsAt 0 (.param .parenOpen :: (ts ++ [.param .parenClose])) e
  | operand {ts : List Token} {e : Expr} (h : SpellsAt 0 ts e) : SpellsAt 1 ts e
  | signed (op : UnaryOp) {ts : List Token} {e : Expr} (h : SpellsAt 1 ts e) :
    SpellsAt 1 (op.token :: ts) (.unary op e)
  | tighter {n : Nat} {ts : List Token} {e : Expr} (hn : n < 6) (h : SpellsAt (n + 1) ts e) :
    SpellsAt (n + 2) ts e
  | binary {op : BinaryOp} {n : Nat} (hop : op.level = n) {ts us : List Token} {lhs rhs : Expr}
    (hl : SpellsAt (n + 2) ts lhs) (hr : SpellsAt (n + 1) us rhs) :
    SpellsAt (n + 2) (ts ++ op.token :: us) (.binary op lhs rhs)

theorem SpellsAt.lift {n m : Nat} {ts : List Token} {e : Expr} (h : SpellsAt (n + 1) ts e) (hnm : n ≤ m)
    (hm : m < 7) : SpellsAt (m + 1) ts e := by
  induction hnm with
  | refl => exact h
  | step _ ih => exact .tighter (Nat.lt_of_succ_lt_succ hm) (ih (Nat.lt_of_succ_lt hm))

theorem level_lt (op : BinaryOp) : op.level < 6 := by cases op <;> decide

/-- The reader of a level, the binary operations of one level above the other. -/
def readerAt (bound : Nat) (expr : Reader Expr) : Nat → Reader Expr
  | 0 => atom bound expr
  | 1 => operand bound expr
  | n + 2 => chain bound (levels.getD n []) (readerAt bound expr (n + 1))

theorem mem_levels_getD {op : BinaryOp} {n : Nat} : op ∈ levels.getD n [] ↔ op.level = n := by
  rcases n with _ | _ | _ | _ | _ | _ | n <;> cases op <;> simp [levels, BinaryOp.level]

/-! ### All that is read is spelled -/

section Sound

variable {bound : Nat} {expr : Reader Expr}

theorem sound_ident : Sound ident fun ts name => ts = [.param (.ident name)] := by
  unfold ident sort
  refine (Sound.select _ _).mono fun ts name h => ?_
  obtain ⟨t, rfl, ht⟩ := h
  split at ht
  · obtain rfl := Option.some.inj ht
    rfl
  · cases ht

theorem sound_literal : Sound literal (SpellsAt 0) := by
  unfold literal sort
  refine (Sound.select _ _).mono fun ts e h => ?_
  obtain ⟨t, rfl, ht⟩ := h
  split at ht
  · obtain rfl := Option.some.inj ht
    exact .literal (.bool true)
  · obtain rfl := Option.some.inj ht
    exact .literal (.bool false)
  · next n =>
    obtain rfl := Option.some.inj ht
    exact .literal (.int n)
  · next x =>
    obtain rfl := Option.some.inj ht
    exact .literal (.float x)
  · next s =>
    obtain rfl := Option.some.inj ht
    exact .literal (.text s)
  · cases ht

theorem sound_arguments (hexpr : Sound expr (SpellsAt 7)) :
    Sound (arguments bound expr) fun ts as => ∃ items : List (List Token × Expr),
      (∀ item ∈ items, SpellsAt 7 item.1 item.2) ∧
        ts = [.param .comma].intercalate (items.map Prod.fst) ∧ as = items.map Prod.snd :=
  Sound.separated (Sound.token _) hexpr bound

theorem sound_call (hexpr : Sound expr (SpellsAt 7)) : Sound (call bound expr) (SpellsAt 0) := by
  refine (sound_ident.bind fun name => (Sound.token _).bind fun _ =>
    (sound_arguments hexpr).bind fun args => (Sound.token _).bind fun _ =>
      Sound.pure (Expr.call name args)).mono fun ts e h => ?_
  obtain ⟨_, _, name, rfl, rfl, _, _, -, rfl, rfl, _, _, as, rfl, ⟨args, hargs, rfl, rfl⟩,
    _, _, -, rfl, rfl, rfl, rfl⟩ := h
  exact .call name hargs

theorem sound_path : Sound (path bound) (SpellsAt 0) := by
  have hkey : Sound (do symbol .dot; ident) fun ts key => ts = [.param .dot, .param (.ident key)] := by
    refine ((Sound.token _).bind fun _ => sound_ident).mono fun ts key h => ?_
    obtain ⟨_, _, -, rfl, rfl, rfl⟩ := h
    rfl
  refine (sound_ident.bind fun first => (hkey.many bound).bind fun rest =>
    Sound.pure (Expr.path first rest)).mono fun ts e h => ?_
  obtain ⟨_, _, first, rfl, rfl, _, _, rest, rfl, hrest, rfl, rfl⟩ := h
  rw [each_eq_iff.1 hrest, List.append_nil]
  exact .path first rest

theorem sound_parenthesised (hexpr : Sound expr (SpellsAt 7)) :
    Sound (parenthesised expr) (SpellsAt 0) := by
  refine ((Sound.token _).bind fun _ => hexpr.bind fun e => (Sound.token _).bind fun _ =>
    Sound.pure e).mono fun ts e h => ?_
  obtain ⟨_, _, -, rfl, rfl, us, _, e, rfl, he, _, _, -, rfl, rfl, rfl, rfl⟩ := h
  exact .parenthesised he

theorem sound_atom (hexpr : Sound expr (SpellsAt 7)) : Sound (atom bound expr) (SpellsAt 0) := by
  refine Sound.choice fun p hp => ?_
  simp only [List.mem_cons, List.not_mem_nil, or_false] at hp
  rcases hp with rfl | rfl | rfl | rfl
  · exact sound_literal
  · exact sound_call hexpr
  · exact sound_path
  · exact sound_parenthesised hexpr

theorem sound_prefixOp : Sound prefixOp fun ts op => ts = [UnaryOp.token op] := by
  refine Sound.choice fun p hp => ?_
  simp only [List.mem_cons, List.not_mem_nil, or_false] at hp
  rcases hp with rfl | rfl
  · refine ((Sound.token _).bind fun _ => Sound.pure UnaryOp.not).mono fun ts op h => ?_
    obtain ⟨_, _, -, rfl, rfl, rfl, rfl⟩ := h
    rfl
  · refine ((Sound.token _).bind fun _ => Sound.pure UnaryOp.negate).mono fun ts op h => ?_
    obtain ⟨_, _, -, rfl, rfl, rfl, rfl⟩ := h
    rfl

theorem SpellsAt.signs {ops : List UnaryOp} {us ts : List Token} {e : Expr}
    (hops : Each (fun ts op => ts = [UnaryOp.token op]) us ops) (h : SpellsAt 1 ts e) :
    SpellsAt 1 (us ++ ts) (ops.foldr .unary e) := by
  induction hops with
  | nil => exact h
  | @cons _ _ op _ head _ ih =>
    rw [head]
    exact .signed op ih

theorem sound_operand (hexpr : Sound expr (SpellsAt 7)) : Sound (operand bound expr) (SpellsAt 1) := by
  refine ((sound_prefixOp.many bound).bind fun ops => (sound_atom hexpr).bind fun e =>
    Sound.pure (ops.foldr .unary e)).mono fun ts e h => ?_
  obtain ⟨us, _, ops, rfl, hops, vs, _, e, rfl, he, rfl, rfl⟩ := h
  rw [List.append_nil]
  exact .signs hops (.operand he)

/-- An operation of one level with its right operand. -/
def SpellsNext (n : Nat) (ts : List Token) (next : BinaryOp × Expr) : Prop :=
  next.1.level = n ∧ ∃ us, ts = next.1.token :: us ∧ SpellsAt (n + 1) us next.2

theorem SpellsAt.chain {n : Nat} {ts us : List Token} {first : Expr} {rest : List (BinaryOp × Expr)}
    (h : SpellsAt (n + 2) ts first) (hrest : Each (SpellsNext n) us rest) :
    SpellsAt (n + 2) (ts ++ us) (rest.foldl (fun lhs next => .binary next.1 lhs next.2) first) := by
  induction hrest generalizing ts first with
  | nil => rwa [List.append_nil]
  | cons head _ ih =>
    obtain ⟨hop, vs, rfl, hrhs⟩ := head
    rw [← List.append_assoc]
    exact ih (.binary hop h hrhs)

theorem sound_operators (n : Nat) : Sound (choice ((levels.getD n []).map operator)) fun ts op =>
    ts = [BinaryOp.token op] ∧ op.level = n := by
  refine Sound.choice fun p hp => ?_
  obtain ⟨op, hmem, rfl⟩ := List.mem_map.1 hp
  refine ((Sound.token _).bind fun _ => Sound.pure op).mono fun ts other hread => ?_
  obtain ⟨_, _, -, rfl, rfl, rfl, rfl⟩ := hread
  exact ⟨rfl, mem_levels_getD.1 hmem⟩

theorem sound_chain {n : Nat} (hn : n < 6) {tighter : Reader Expr} (h : Sound tighter (SpellsAt (n + 1))) :
    Sound (chain bound (levels.getD n []) tighter) (SpellsAt (n + 2)) := by
  have hnext : Sound (do
      let op ← choice ((levels.getD n []).map operator)
      let rhs ← tighter
      pure (op, rhs)) (SpellsNext n) := by
    refine ((sound_operators n).bind fun op => h.bind fun rhs =>
      Sound.pure (op, rhs)).mono fun ts next hread => ?_
    obtain ⟨_, _, op, rfl, ⟨rfl, hlevel⟩, us, _, rhs, rfl, hrhs, rfl, rfl⟩ := hread
    exact ⟨hlevel, us, by rw [List.append_nil]; rfl, hrhs⟩
  refine (h.bind fun first => (hnext.many bound).bind fun rest => Sound.pure _).mono fun ts e hread => ?_
  obtain ⟨us, _, first, rfl, hfirst, vs, _, rest, rfl, hrest, rfl, rfl⟩ := hread
  rw [List.append_nil]
  exact (SpellsAt.tighter hn hfirst).chain hrest

theorem sound_readerAt (hexpr : Sound expr (SpellsAt 7)) :
    ∀ n, n < 8 → Sound (readerAt bound expr n) (SpellsAt n)
  | 0, _ => sound_atom hexpr
  | 1, _ => sound_operand hexpr
  | n + 2, hn => sound_chain (by omega) (sound_readerAt hexpr (n + 1) (by omega))

theorem sound_expression (bound : Nat) : Sound (expression bound) (SpellsAt 7) := by
  induction bound with
  | zero => intro ts e rest h; cases h
  | succ bound ih => exact sound_readerAt ih 7 (by omega)

end Sound

/-! ### All that is spelled is read -/

/-- Whether an expression may begin with a token. -/
def beginsExpr : Token → Bool
  | .param (.operator op) => op == .subtract
  | .param .parenClose | .param .comma | .param .dot | .param .in => false
  | .param _ => true
  | _ => false

/-- The tokens that may make what is spelled at a level longer. -/
def Continues (n : Nat) (t : Token) : Prop :=
  t = .param .dot ∨ t = .param .parenOpen ∨ ∃ op : BinaryOp, t = op.token ∧ op.level + 2 ≤ n

theorem Continues.mono {n m : Nat} {t : Token} (h : Continues n t) (hnm : n ≤ m) : Continues m t := by
  rcases h with h | h | ⟨op, h, hop⟩
  · exact .inl h
  · exact .inr (.inl h)
  · exact .inr (.inr ⟨op, h, Nat.le_trans hop hnm⟩)

theorem not_continues_token {op : BinaryOp} {n : Nat} (h : n ≤ op.level + 1) : ¬ Continues n op.token := by
  rintro (h' | h' | ⟨other, h', hother⟩)
  · cases h'
  · cases h'
  · have : op = other := by simpa [BinaryOp.token] using h'
    subst this
    omega

theorem starts_spellsAt (n : Nat) : Starts (SpellsAt n) fun t => beginsExpr t = true := by
  intro ts e h
  induction h with
  | literal value => exact ⟨_, _, rfl, by rcases value with (_ | _) | _ | _ | _ <;> rfl⟩
  | path first rest => exact ⟨_, _, rfl, rfl⟩
  | call name _ _ => exact ⟨_, _, rfl, rfl⟩
  | parenthesised _ _ => exact ⟨_, _, rfl, rfl⟩
  | signed op _ _ => exact ⟨_, _, rfl, by cases op <;> rfl⟩
  | operand _ ih => exact ih
  | tighter _ _ ih => exact ih
  | binary _ _ _ ih _ =>
    obtain ⟨t, us, rfl, ht⟩ := ih
    exact ⟨t, _, rfl, ht⟩

theorem SpellsAt.exists_signs {ts : List Token} {e : Expr} (h : SpellsAt 1 ts e) :
    ∃ (ops : List UnaryOp) (us : List Token) (a : Expr), SpellsAt 0 us a ∧
      ts = (ops.flatMap fun op => [op.token]) ++ us ∧ e = ops.foldr .unary a := by
  generalize hn : 1 = n at h
  induction h with
  | operand h _ => exact ⟨[], _, _, h, rfl, rfl⟩
  | signed op _ ih =>
    obtain ⟨ops, us, a, ha, rfl, rfl⟩ := ih hn
    exact ⟨op :: ops, us, a, ha, rfl, rfl⟩
  | _ => cases hn

theorem SpellsAt.exists_chain {n : Nat} {ts : List Token} {e : Expr} (h : SpellsAt (n + 2) ts e) :
    ∃ (us vs : List Token) (first : Expr) (rest : List (BinaryOp × Expr)), SpellsAt (n + 1) us first ∧
      Each (SpellsNext n) vs rest ∧ ts = us ++ vs ∧
        e = rest.foldl (fun lhs next => .binary next.1 lhs next.2) first := by
  generalize hm : n + 2 = m at h
  induction h with
  | tighter _ h _ =>
    obtain rfl : n = _ := Nat.add_right_cancel hm
    exact ⟨_, [], _, [], h, .nil, (List.append_nil _).symm, rfl⟩
  | @binary op k hop _ us _ rhs _ hr ihl _ =>
    obtain rfl : n = k := Nat.add_right_cancel hm
    obtain ⟨ws, vs, first, rest, hfirst, hrest, rfl, rfl⟩ := ihl rfl
    refine ⟨ws, vs ++ op.token :: us, first, rest ++ [(op, rhs)], hfirst,
      hrest.snoc ⟨hop, us, rfl, hr⟩, List.append_assoc .., ?_⟩
    rw [List.foldl_append]
    rfl
  | _ => cases hm

section Complete

variable {bound : Nat} {expr : Reader Expr}

theorem run_ident {l : Lexeme} {name : String} (h : l.token = .param (.ident name)) (ls : List Lexeme) :
    run ident (l :: ls) = some (name, ls) := by
  unfold ident sort
  rw [run_select_cons, h]
  rfl

theorem run_literal {l : Lexeme} {value : Literal} (h : l.token = value.token) (ls : List Lexeme) :
    run literal (l :: ls) = some (.literal value, ls) := by
  unfold literal sort
  rw [run_select_cons, h]
  rcases value with (_ | _) | _ | _ | _ <;> rfl

theorem run_literal_of_ident {l : Lexeme} {name : String} (h : l.token = .param (.ident name))
    (ls : List Lexeme) : run literal (l :: ls) = none := by
  unfold literal sort
  rw [run_select_cons, h]
  rfl

theorem run_literal_of_parenOpen {l : Lexeme} (h : l.token = .param .parenOpen) (ls : List Lexeme) :
    run literal (l :: ls) = none := by
  unfold literal sort
  rw [run_select_cons, h]
  rfl

theorem run_ident_of_parenOpen {l : Lexeme} (h : l.token = .param .parenOpen) (ls : List Lexeme) :
    run ident (l :: ls) = none := by
  unfold ident sort
  rw [run_select_cons, h]
  rfl

theorem run_path {us rest : List Lexeme} {first : String} {keys : List String}
    (hus : tokens us =
      .param (.ident first) :: keys.flatMap fun key => [.param .dot, .param (.ident key)])
    (hlength : us.length ≤ bound) (hnext : Next (· ≠ .param .dot) rest) :
    run (path bound) (us ++ rest) = some (.path first keys, rest) := by
  obtain ⟨l, ls, rfl, hl, hls⟩ := tokens_eq_cons hus
  have hkey : Complete (do symbol .dot; ident) (fun ts key => ts = [.param .dot, .param (.ident key)])
      (bound + 1) fun _ => True := by
    intro us key rest hus _ _
    obtain ⟨d, ds, rfl, hd, hds⟩ := tokens_eq_cons hus
    obtain ⟨k, rfl, hk⟩ := tokens_eq_singleton hds
    exact (run_bind_of_eq (run_token_of_eq hd _) _).trans (run_ident hk _)
  have hmany := hkey.many (fun ts key h => ⟨_, _, h, trivial⟩) (each_eq_iff.2 hls)
    (Nat.lt_of_succ_lt (Nat.lt_succ_of_le hlength)) (hnext.mono fun _ _ => trivial)
    (run_bind_of_none (run_token_of_next hnext) _) (Nat.le_of_succ_le hlength)
  refine (run_bind_of_eq (run_ident hl (ls ++ rest)) _).trans ?_
  exact run_bind_of_eq hmany _

theorem not_continues_parenClose (n : Nat) : ¬ Continues n (.param .parenClose) := by
  rintro (h | h | ⟨op, h, -⟩) <;> cases h

theorem not_continues_comma (n : Nat) : ¬ Continues n (.param .comma) := by
  rintro (h | h | ⟨op, h, -⟩) <;> cases h

theorem not_continues_paramsClose (n : Nat) : ¬ Continues n .paramsClose := by
  rintro (h | h | ⟨op, h, -⟩) <;> cases h

theorem run_call (hexpr : Complete expr (SpellsAt 7) bound fun t => ¬ Continues 7 t)
    (hsound : Sound expr (SpellsAt 7)) {us rest : List Lexeme} {name : String}
    {args : List (List Token × Expr)} (hargs : ∀ arg ∈ args, SpellsAt 7 arg.1 arg.2)
    (hus : tokens us = .param (.ident name) :: .param .parenOpen ::
      ([.param .comma].intercalate (args.map Prod.fst) ++ [.param .parenClose]))
    (hlength : us.length < bound + 1) :
    run (call (bound + 1) expr) (us ++ rest) = some (.call name (args.map Prod.snd), rest) := by
  obtain ⟨l, ls, rfl, hl, hls⟩ := tokens_eq_cons hus
  obtain ⟨o, os, rfl, ho, hos⟩ := tokens_eq_cons hls
  obtain ⟨as, cs, rfl, has, hcs⟩ := tokens_eq_append hos
  obtain ⟨c, rfl, hc⟩ := tokens_eq_singleton hcs
  simp only [List.length_cons, List.length_append] at hlength
  have hstop : Next (fun t => ¬ Continues 7 t ∧ t ≠ .param .comma) (c :: rest) :=
    ⟨hc ▸ not_continues_parenClose 7, hc ▸ (by decide)⟩
  have hbegins : Next (fun t => ¬ beginsExpr t = true) (c :: rest) := by
    show ¬ beginsExpr c.token = true
    rw [hc]
    exact Bool.false_ne_true
  have hnone : run expr (c :: rest) = none := hsound.eq_none (starts_spellsAt 7) hbegins
  have hread := hexpr.separated (not_continues_comma 7) hargs has (by omega) hstop hnone
    (show as.length ≤ bound + 1 by omega)
  have hsplit : l :: o :: (as ++ [c]) ++ rest = l :: o :: (as ++ c :: rest) := by simp
  rw [hsplit]
  refine (run_bind_of_eq (run_ident hl _) _).trans ((run_bind_of_eq (run_token_of_eq ho _) _).trans ?_)
  exact (run_bind_of_eq hread _).trans (run_bind_of_eq (run_token_of_eq hc rest) _)

theorem run_parenthesised (hexpr : Complete expr (SpellsAt 7) bound fun t => ¬ Continues 7 t)
    {us rest : List Lexeme} {ts : List Token} {e : Expr} (h : SpellsAt 7 ts e)
    (hus : tokens us = .param .parenOpen :: (ts ++ [.param .parenClose])) (hlength : us.length < bound + 1) :
    run (parenthesised expr) (us ++ rest) = some (e, rest) := by
  obtain ⟨o, os, rfl, ho, hos⟩ := tokens_eq_cons hus
  obtain ⟨es, cs, rfl, rfl, hcs⟩ := tokens_eq_append hos
  obtain ⟨c, rfl, hc⟩ := tokens_eq_singleton hcs
  simp only [List.length_cons, List.length_append] at hlength
  have hread : run expr (es ++ c :: rest) = some (e, c :: rest) :=
    hexpr es e (c :: rest) h (by omega) (show ¬ Continues 7 c.token from hc ▸ not_continues_parenClose 7)
  have hsplit : o :: (es ++ [c]) ++ rest = o :: (es ++ c :: rest) := by simp
  rw [hsplit]
  refine (run_bind_of_eq (run_token_of_eq ho _) _).trans ?_
  exact (run_bind_of_eq hread _).trans (run_bind_of_eq (run_token_of_eq hc rest) _)

theorem complete_atom (hexpr : Complete expr (SpellsAt 7) bound fun t => ¬ Continues 7 t)
    (hsound : Sound expr (SpellsAt 7)) :
    Complete (atom (bound + 1) expr) (SpellsAt 0) (bound + 1) fun t => ¬ Continues 0 t := by
  intro us e rest h hlength hnext
  unfold atom
  simp only [run_choice_cons]
  generalize hus : tokens us = ts at h
  cases h with
  | literal value =>
    obtain ⟨l, rfl, hl⟩ := tokens_eq_singleton hus
    rw [List.cons_append, run_literal hl]
    rfl
  | path first keys =>
    obtain ⟨l, ls, rfl, hl, hls⟩ := tokens_eq_cons hus
    have hopen : Next (· ≠ .param .parenOpen) (ls ++ rest) := by
      cases keys with
      | nil =>
        obtain rfl : ls = [] := List.map_eq_nil_iff.1 hls
        exact hnext.mono fun t ht he => ht (.inr (.inl he))
      | cons key keys =>
        obtain ⟨d, ds, rfl, hd, -⟩ := tokens_eq_cons hls
        show d.token ≠ _
        rw [hd]
        decide
    have hcall : run (call (bound + 1) expr) (l :: ls ++ rest) = none :=
      (run_bind_of_eq (run_ident hl (ls ++ rest)) _).trans (run_bind_of_none (run_token_of_next hopen) _)
    have hpath := run_path hus (Nat.le_of_lt hlength) (hnext.mono fun t ht he => ht (.inl he))
    rw [hcall, hpath, List.cons_append, run_literal_of_ident hl]
    rfl
  | call name hargs =>
    rw [run_call hexpr hsound hargs hus hlength]
    obtain ⟨l, ls, rfl, hl, -⟩ := tokens_eq_cons hus
    rw [List.cons_append, run_literal_of_ident hl]
    rfl
  | parenthesised h =>
    rw [run_parenthesised hexpr h hus hlength]
    obtain ⟨o, os, rfl, ho, -⟩ := tokens_eq_cons hus
    have hident := run_ident_of_parenOpen ho (os ++ rest)
    have hcall : run (call (bound + 1) expr) (o :: (os ++ rest)) = none := run_bind_of_none hident _
    have hpath : run (path (bound + 1)) (o :: (os ++ rest)) = none := run_bind_of_none hident _
    rw [List.cons_append, run_literal_of_parenOpen ho, hcall, hpath]
    rfl

theorem starts_prefixOp : Starts (fun ts op => ts = [UnaryOp.token op]) fun t => ∃ op : UnaryOp, t = op.token :=
  fun _ op h => ⟨op.token, [], h, op, rfl⟩

theorem complete_prefixOp :
    Complete prefixOp (fun ts op => ts = [UnaryOp.token op]) bound fun _ => True := by
  intro us op rest hus _ _
  obtain ⟨l, rfl, hl⟩ := tokens_eq_singleton hus
  unfold prefixOp
  rw [run_choice_cons]
  cases op with
  | not =>
    have hnot : run (token (.param .not)) (l :: rest) = some ((), rest) := run_token_of_eq hl rest
    exact congrArg (Option.or · _) (run_bind_of_eq hnot _)
  | negate =>
    have hnot : run (token (.param .not)) (l :: rest) = none := by
      refine run_token_of_ne ?_ rest
      rw [hl]
      decide
    have hminus : run (token (.param (.operator .subtract))) (l :: rest) = some ((), rest) :=
      run_token_of_eq hl rest
    refine (congrArg (Option.or · _) (run_bind_of_none hnot _)).trans ?_
    exact run_bind_of_eq hminus _

theorem starts_atom : Starts (SpellsAt 0) fun t => ¬ ∃ op : UnaryOp, t = op.token := by
  intro ts e h
  have hsign : ∀ {t : Token}, t ≠ .param .not → t ≠ .param (.operator .subtract) →
      ¬ ∃ op : UnaryOp, t = op.token := by
    rintro t hnot hminus ⟨op, rfl⟩
    cases op
    · exact hnot rfl
    · exact hminus rfl
  cases h with
  | literal value =>
    refine ⟨_, _, rfl, ?_⟩
    rcases value with (_ | _) | _ | _ | _ <;> exact hsign (fun h => by cases h) fun h => by cases h
  | path first rest => exact ⟨_, _, rfl, hsign (fun h => by cases h) fun h => by cases h⟩
  | call name _ => exact ⟨_, _, rfl, hsign (fun h => by cases h) fun h => by cases h⟩
  | parenthesised _ => exact ⟨_, _, rfl, hsign (by decide) (by decide)⟩

theorem complete_operand (hatom : Complete (atom bound expr) (SpellsAt 0) bound fun t => ¬ Continues 0 t) :
    Complete (operand bound expr) (SpellsAt 1) bound fun t => ¬ Continues 1 t := by
  intro us e rest h hlength hnext
  obtain ⟨ops, ts, a, ha, hus, rfl⟩ := h.exists_signs
  obtain ⟨front, back, rfl, hfront, rfl⟩ := tokens_eq_append hus
  rw [List.length_append] at hlength
  have hstop : run prefixOp (back ++ rest) = none :=
    sound_prefixOp.eq_none starts_prefixOp (starts_atom.next ha)
  have hsigns := (@complete_prefixOp bound).many (fun ts op h => ⟨_, [], h, trivial⟩) (each_eq_iff.2 hfront)
    (by omega) ((starts_atom.next ha).mono fun _ _ => trivial) hstop (show front.length ≤ bound by omega)
  have hread : run (atom bound expr) (back ++ rest) = some (a, rest) :=
    hatom back a rest ha (by omega) (hnext.mono fun t ht hc => ht (hc.mono (Nat.zero_le 1)))
  rw [List.append_assoc]
  exact (run_bind_of_eq hsigns _).trans (run_bind_of_eq hread _)

theorem run_operators {ops : List BinaryOp} {op : BinaryOp} (hop : op ∈ ops) {l : Lexeme}
    (hl : l.token = op.token) (ls : List Lexeme) :
    run (choice (ops.map operator)) (l :: ls) = some (op, ls) := by
  induction ops with
  | nil => cases hop
  | cons other ops ih =>
    rw [List.map_cons, run_choice_cons]
    by_cases h : op = other
    · subst h
      have hread : run (token op.token) (l :: ls) = some ((), ls) := run_token_of_eq hl ls
      exact congrArg (Option.or · _) (run_bind_of_eq hread _)
    · have hnone : run (token other.token) (l :: ls) = none := by
        refine run_token_of_ne (fun he => h ?_) ls
        simpa [BinaryOp.token] using hl.symm.trans he
      rw [ih ((List.mem_cons.1 hop).resolve_left h)]
      exact congrArg (Option.or · _) (run_bind_of_none hnone _)

theorem complete_chain {n : Nat} {tighter : Reader Expr}
    (h : Complete tighter (SpellsAt (n + 1)) bound fun t => ¬ Continues (n + 1) t) :
    Complete (chain bound (levels.getD n []) tighter) (SpellsAt (n + 2)) bound
      fun t => ¬ Continues (n + 2) t := by
  intro us e rest hspells hlength hnext
  obtain ⟨ts, vs, first, nexts, hfirst, hnexts, hus, rfl⟩ := hspells.exists_chain
  obtain ⟨front, back, rfl, rfl, rfl⟩ := tokens_eq_append hus
  rw [List.length_append] at hlength
  have hone : Complete (do
      let op ← choice ((levels.getD n []).map operator)
      let rhs ← tighter
      pure (op, rhs)) (SpellsNext n) bound fun t => ¬ Continues (n + 1) t := by
    rintro us ⟨op, rhs⟩ rest ⟨hop, ws, hus, hrhs⟩ hlength hnext
    obtain ⟨l, ls, rfl, hl, rfl⟩ := tokens_eq_cons hus
    have hread : run tighter (ls ++ rest) = some (rhs, rest) :=
      h ls rhs rest hrhs (Nat.lt_of_succ_lt hlength) hnext
    refine (run_bind_of_eq (run_operators (mem_levels_getD.2 hop) hl (ls ++ rest)) _).trans ?_
    exact run_bind_of_eq hread _
  have hstarts : Starts (SpellsNext n) fun t => ¬ Continues (n + 1) t :=
    fun _ next ⟨hop, ws, hus, _⟩ => ⟨_, ws, hus, not_continues_token (by omega)⟩
  have hstop : run (choice ((levels.getD n []).map operator)) rest = none := by
    have hstarts : Starts (fun ts op => ts = [BinaryOp.token op] ∧ op.level = n)
        fun t => ∃ op : BinaryOp, t = op.token ∧ op.level = n :=
      fun _ op hop => ⟨op.token, [], hop.1, op, rfl, hop.2⟩
    refine (sound_operators n).eq_none hstarts (hnext.mono ?_)
    rintro t ht ⟨op, rfl, hop⟩
    exact ht (.inr (.inr ⟨op, rfl, by omega⟩))
  have hnext' : Next (fun t => ¬ Continues (n + 1) t) rest :=
    hnext.mono fun t ht hc => ht (hc.mono (Nat.le_succ _))
  have hread : run tighter (front ++ (back ++ rest)) = some (first, back ++ rest) :=
    h front first _ hfirst (by omega) (hstarts.next_each hnexts hnext')
  have hmany := hone.many hstarts hnexts (by omega) hnext' (run_bind_of_none hstop _)
    (show back.length ≤ bound by omega)
  rw [List.append_assoc]
  exact (run_bind_of_eq hread _).trans (run_bind_of_eq hmany _)

theorem complete_readerAt (hexpr : Complete expr (SpellsAt 7) bound fun t => ¬ Continues 7 t)
    (hsound : Sound expr (SpellsAt 7)) : ∀ n,
      Complete (readerAt (bound + 1) expr n) (SpellsAt n) (bound + 1) fun t => ¬ Continues n t
  | 0 => complete_atom hexpr hsound
  | 1 => complete_operand (complete_readerAt hexpr hsound 0)
  | n + 2 => complete_chain (complete_readerAt hexpr hsound (n + 1))

theorem complete_expression (bound : Nat) :
    Complete (expression bound) (SpellsAt 7) bound fun t => ¬ Continues 7 t := by
  induction bound with
  | zero => exact fun us e rest _ hlength => absurd hlength (Nat.not_lt_zero _)
  | succ bound ih => exact complete_readerAt ih (sound_expression bound) 7

end Complete

/-- The reader of expressions takes some tokens whole exactly if they spell an expression. -/
theorem run_expression_eq_some_iff {ts : List Lexeme} {e : Expr} {bound : Nat} (h : ts.length < bound) :
    run (expression bound) ts = some (e, []) ↔ SpellsAt 7 (tokens ts) e := by
  constructor
  · intro hread
    obtain ⟨us, hus, hspells⟩ := sound_expression bound ts e [] hread
    rw [List.append_nil] at hus
    exact hus ▸ hspells
  · intro hspells
    have hread : run (expression bound) (ts ++ []) = some (e, []) :=
      complete_expression bound ts e [] hspells h trivial
    rwa [List.append_nil] at hread

end Grammar

end Templating
