import Templating.Proofs.Operations

/-!
# Written expressions

Each expression has a written form in which an operand stands in parentheses only where its place asks for
what binds more tightly. The reader of expressions takes exactly what is spelled, so it reads the written
form back, and every other spelling of the expression is longer.
-/

namespace Templating

/-- Tokens in parentheses of their own. -/
def enclosed (ts : List Token) : List Token := .param .parenOpen :: (ts ++ [.param .parenClose])

@[simp] theorem length_enclosed (ts : List Token) : (enclosed ts).length = ts.length + 2 := by
  simp [enclosed]

/-! ### Longer lists of tokens -/

/-- The tokens `ts` are `us`, or there are more of them. -/
def Wider (ts us : List Token) : Prop := ts = us ∨ us.length < ts.length

theorem Wider.refl (ts : List Token) : Wider ts ts := .inl rfl

theorem Wider.length_le {ts us : List Token} (h : Wider ts us) : us.length ≤ ts.length :=
  h.elim (fun h => h ▸ Nat.le_refl _) Nat.le_of_lt

theorem Wider.trans {ts us vs : List Token} (h : Wider ts us) (h' : Wider us vs) : Wider ts vs := by
  rcases h with rfl | h
  · exact h'
  · exact .inr (Nat.lt_of_le_of_lt h'.length_le h)

theorem Wider.append {ts us vs ws : List Token} (h : Wider ts us) (h' : Wider vs ws) :
    Wider (ts ++ vs) (us ++ ws) := by
  have := h.length_le
  have := h'.length_le
  rcases h with rfl | h
  · rcases h' with rfl | h'
    · exact .inl rfl
    · right
      simpa using h'
  · right
    rw [List.length_append, List.length_append]
    omega

theorem Wider.cons (t : Token) {ts us : List Token} (h : Wider ts us) : Wider (t :: ts) (t :: us) :=
  (Wider.refl [t]).append h

theorem Wider.enclose {ts us : List Token} (h : Wider ts us) :
    Wider (enclosed ts) (enclosed us) :=
  (h.append (.refl _)).cons _

theorem Wider.of_enclosed {ts us : List Token} (h : Wider ts us) : Wider (enclosed ts) us := by
  have := h.length_le
  right
  rw [length_enclosed]
  omega

namespace Expr

/-! ### The written form -/

/-- The tightest level at which an expression needs no parentheses. -/
def level : Expr → Nat
  | .literal _ | .path _ _ | .call _ _ => 0
  | .unary _ _ => 1
  | .binary op _ _ => op.level + 2

/-- What is put for an expression of level `m`, written `ts`, in a place of level `n`. -/
def placed (n m : Nat) (ts : List Token) : List Token := if m ≤ n then ts else enclosed ts

mutual

/-- The tokens of an expression, with only the parentheses that its levels require. -/
def written : Expr → List Token
  | .literal value => [value.token]
  | .path first rest =>
    .param (.ident first) :: rest.flatMap fun key => [.param .dot, .param (.ident key)]
  | .unary op operand => op.token :: placed 1 operand.level operand.written
  | .binary op lhs rhs =>
    placed (op.level + 2) lhs.level lhs.written ++
      op.token :: placed (op.level + 1) rhs.level rhs.written
  | .call name args =>
    .param (.ident name) :: .param .parenOpen ::
      ([.param .comma].intercalate (writtenAll args) ++ [.param .parenClose])

def writtenAll : List Expr → List (List Token)
  | [] => []
  | e :: es => e.written :: writtenAll es

end

theorem writtenAll_eq (es : List Expr) : writtenAll es = es.map written := by
  induction es with
  | nil => rfl
  | cons e es ih => rw [writtenAll, ih, List.map_cons]

/-- An expression as it is written in a place of level `n`. -/
def writtenAt (n : Nat) (e : Expr) : List Token := placed n e.level e.written

theorem writtenAt_of_le {e : Expr} {n : Nat} (h : e.level ≤ n) : e.writtenAt n = e.written := if_pos h

theorem writtenAt_of_lt {e : Expr} {n : Nat} (h : n < e.level) :
    e.writtenAt n = enclosed e.written := if_neg (Nat.not_le_of_lt h)

theorem level_le (e : Expr) : e.level ≤ 7 := by
  cases e with
  | binary op _ _ =>
    have := Grammar.level_lt op
    show op.level + 2 ≤ 7
    omega
  | _ => simp [level]

theorem writtenAt_seven (e : Expr) : e.writtenAt 7 = e.written := writtenAt_of_le e.level_le

/-- A looser place asks for no more. -/
theorem wider_writtenAt (e : Expr) {n m : Nat} (h : n ≤ m) : Wider (e.writtenAt n) (e.writtenAt m) := by
  rcases Nat.lt_or_ge n e.level with hn | hn
  · rw [writtenAt_of_lt hn]
    rcases Nat.lt_or_ge m e.level with hm | hm
    · rw [writtenAt_of_lt hm]
      exact .refl _
    · rw [writtenAt_of_le hm]
      exact (Wider.refl _).of_enclosed
  · rw [writtenAt_of_le hn, writtenAt_of_le (Nat.le_trans hn h)]
    exact .refl _

end Expr

namespace Grammar

open Reader

/-! ### The written form is a spelling -/

theorem SpellsAt.mono {n m : Nat} {ts : List Token} {e : Expr} (h : SpellsAt n ts e) (hnm : n ≤ m)
    (hm : m ≤ 7) : SpellsAt m ts e := by
  cases n with
  | zero =>
    cases m with
    | zero => exact h
    | succ m => exact (SpellsAt.operand h).lift (Nat.zero_le m) hm
  | succ n =>
    cases m with
    | zero => exact absurd hnm (Nat.not_succ_le_zero n)
    | succ m => exact h.lift (Nat.le_of_succ_le_succ hnm) hm

theorem SpellsAt.placed {n : Nat} {e : Expr} (h : SpellsAt e.level e.written e) (hn : n ≤ 7) :
    SpellsAt n (e.writtenAt n) e := by
  rcases Nat.lt_or_ge n e.level with hlevel | hlevel
  · rw [Expr.writtenAt_of_lt hlevel]
    exact (SpellsAt.parenthesised (h.mono e.level_le (Nat.le_refl 7))).mono (Nat.zero_le n) hn
  · rw [Expr.writtenAt_of_le hlevel]
    exact h.mono hlevel hn

mutual

theorem spellsAt_level_written : ∀ e : Expr, SpellsAt e.level e.written e
  | .literal value => .literal value
  | .path first rest => .path first rest
  | .unary op operand => .signed op ((spellsAt_level_written operand).placed (by decide))
  | .binary op lhs rhs => by
    have hop := level_lt op
    exact .binary rfl ((spellsAt_level_written lhs).placed (by omega))
      ((spellsAt_level_written rhs).placed (by omega))
  | .call name args => by
    have hcall := SpellsAt.call name (spellsAt_writtenAll args)
    have hargs : (args.map fun e => (e.written, e)).map Prod.snd = args :=
      (List.map_map ..).trans (List.map_id args)
    rw [hargs, List.map_map] at hcall
    rw [Expr.written, Expr.writtenAll_eq]
    exact hcall

theorem spellsAt_writtenAll : ∀ es : List Expr,
    ∀ arg ∈ es.map fun e => (e.written, e), SpellsAt 7 arg.1 arg.2
  | [] => nofun
  | e :: es => List.forall_mem_cons.2
    ⟨(spellsAt_level_written e).mono e.level_le (Nat.le_refl 7), spellsAt_writtenAll es⟩

end

theorem spellsAt_written (e : Expr) : SpellsAt 7 e.written e :=
  (spellsAt_level_written e).mono e.level_le (Nat.le_refl 7)

/-! ### Every other spelling is longer -/

theorem wider_intercalate (t : Token) {items : List (List Token × Expr)}
    (h : ∀ item ∈ items, Wider item.1 item.2.written) :
    Wider ([t].intercalate (items.map Prod.fst))
      ([t].intercalate ((items.map Prod.snd).map Expr.written)) := by
  induction items with
  | nil => exact .refl _
  | cons item items ih =>
    obtain ⟨hitem, hitems⟩ := List.forall_mem_cons.1 h
    cases items with
    | nil => simpa using hitem
    | cons next items =>
      simp only [List.map_cons, List.intercalate_cons_cons] at ih ⊢
      exact (hitem.append (.refl _)).append (ih hitems)

theorem SpellsAt.wider {n : Nat} {ts : List Token} {e : Expr} (h : SpellsAt n ts e) :
    Wider ts (e.writtenAt n) := by
  induction h with
  | literal value => exact .refl _
  | path first rest => exact .refl _
  | @call name args _ ih =>
    have hargs := wider_intercalate (.param .comma) fun arg harg => arg.2.writtenAt_seven ▸ ih arg harg
    rw [Expr.writtenAt_of_le (Nat.le_refl 0), Expr.written, Expr.writtenAll_eq]
    exact ((hargs.append (.refl _)).cons _).cons _
  | @parenthesised ts e _ ih =>
    -- where the level asks for no parentheses, these are two tokens too many
    rw [Expr.writtenAt_seven] at ih
    rcases Nat.lt_or_ge 0 e.level with hlevel | hlevel
    · rw [Expr.writtenAt_of_lt hlevel]
      exact ih.enclose
    · rw [Expr.writtenAt_of_le hlevel]
      exact ih.of_enclosed
  | operand _ ih => exact ih.trans (Expr.wider_writtenAt _ (Nat.le_succ 0))
  | signed op _ ih => exact ih.cons _
  | tighter _ _ ih => exact ih.trans (Expr.wider_writtenAt _ (Nat.le_succ _))
  | @binary op n hop ts us lhs rhs _ _ ihl ihr =>
    have hlevel : (Expr.binary op lhs rhs).level ≤ n + 2 := Nat.le_of_eq (congrArg (· + 2) hop)
    rw [Expr.writtenAt_of_le hlevel, Expr.written, hop]
    exact ihl.append (ihr.cons _)

/-! ### Reading by precedence -/

/-- The reader takes tokens whole exactly as the expression that they spell, so it reads what is written of
an expression back, and whatever else it reads as this expression is longer. -/
theorem run_expression_by_precedence {ls : List Lexeme} {bound : Nat} (h : ls.length < bound) (e : Expr) :
    (run (expression bound) ls = some (e, []) ↔ SpellsAt 7 (tokens ls) e) ∧
      (tokens ls = e.written → run (expression bound) ls = some (e, [])) ∧
        (run (expression bound) ls = some (e, []) → tokens ls ≠ e.written →
          e.written.length < ls.length) := by
  have hread := run_expression_eq_some_iff (e := e) h
  refine ⟨hread, fun hwritten => hread.2 (hwritten ▸ spellsAt_written e), fun hrun hne => ?_⟩
  have hwider : Wider (tokens ls) (e.writtenAt 7) := (hread.1 hrun).wider
  rw [Expr.writtenAt_seven] at hwider
  rw [← length_tokens]
  exact hwider.resolve_left hne

/-- The expression `-(a - (b - c)) * 2 == f(x.y, 1) || !d`. -/
def mixed : Expr :=
  .binary .or
    (.binary .equal
      (.binary .multiply
        (.unary .negate
          (.binary .subtract (.path "a" []) (.binary .subtract (.path "b" []) (.path "c" []))))
        (.literal (.int 2)))
      (.call "f" [.path "x" ["y"], .literal (.int 1)]))
    (.unary .not (.path "d" []))

def mixedTokens : List Token :=
  [.operator .subtract, .parenOpen, .ident "a", .operator .subtract, .parenOpen, .ident "b",
    .operator .subtract, .ident "c", .parenClose, .parenClose, .operator .multiply, .int 2, .operator .equal,
    .ident "f", .parenOpen, .ident "x", .dot, .ident "y", .comma, .int 1, .parenClose, .operator .or, .not,
    .ident "d"].map .param

/-- Each of its parentheses is needed, and none is missing. -/
theorem run_expression_mixed :
    (mixedTokens.map (Lexeme.mk · ⟨0, 0⟩)).length < 25 ∧ mixedTokens = mixed.written ∧
      run (expression 25) (mixedTokens.map (Lexeme.mk · ⟨0, 0⟩)) = some (mixed, []) :=
  ⟨by decide, rfl, (run_expression_by_precedence (by decide) mixed).2.1 rfl⟩

end Grammar

end Templating
