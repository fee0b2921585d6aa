import Templating.Proofs.Doubles
import Templating.Proofs.Running
import Templating.Renderer.Basic

/-!
# Operations on integers

Arithmetic on 64-bit integers gives the exact result where that fits them again, with one exception, and a
finite double where it does not. Comparisons are those of the rounded integers, so that they are exact as
long as no two different integers are rounded to the same one.
-/

namespace Templating

open Number

namespace BinaryOp

/-! ### What the operations mean -/

/-- The operations that calculate a number from two. -/
def calculating : List BinaryOp := [add, subtract, multiply, divide, modulo]

/-- The operations that compare two values. -/
def comparing : List BinaryOp := [equal, notEqual, less, lessOrEqual, greater, greaterOrEqual]

/-- The result of a calculation with integers, for a divisor other than zero. -/
def result (op : BinaryOp) (x y : Int) : Int :=
  match op with
  | add => x + y
  | subtract => x - y
  | multiply => x * y
  | divide => x.tdiv y
  | _ => x.tmod y

/-- What a comparison of integers says. -/
def relates (op : BinaryOp) (x y : Int) : Bool :=
  match op with
  | equal => x == y
  | notEqual => x != y
  | less => decide (x < y)
  | lessOrEqual => decide (x ≤ y)
  | greater => decide (y < x)
  | _ => decide (y ≤ x)

/-- The one calculation whose result fits 64 bits while the quotient that it is tested by does not. -/
def Overlooks (op : BinaryOp) (x y : Int) : Prop := op = .modulo ∧ x = -Int.pow 2 63 ∧ y = -1

instance (op : BinaryOp) (x y : Int) : Decidable (op.Overlooks x y) := inferInstanceAs (Decidable (_ ∧ _))

end BinaryOp

/-! ### Integers that fit -/

namespace Number

theorem isSigned_iff {n : Int} : IsSigned n ↔ -2 ^ 63 ≤ n ∧ n < 2 ^ 63 := Iff.rfl

theorem natAbs_lt_of_fits {n : Int} (h : IsSigned n ∨ IsUnsigned n) : n.natAbs < 2 ^ 64 := by
  change (-2 ^ 63 ≤ n ∧ n < 2 ^ 63) ∨ (0 ≤ n ∧ n < 2 ^ 64) at h
  omega

/-- A quotient is too large only for the least dividend and minus one. -/
theorem isSigned_tdiv_iff {x y : Int} (hx : IsSigned x) (hy : y ≠ 0) :
    IsSigned (x.tdiv y) ↔ ¬ (x = -Int.pow 2 63 ∧ y = -1) := by
  constructor
  · rintro h ⟨rfl, rfl⟩
    exact absurd h (by decide)
  · intro h
    rw [isSigned_iff] at hx ⊢
    change ¬ (x = -2 ^ 63 ∧ y = -1) at h
    by_cases hunit : y.natAbs = 1
    · rcases Int.natAbs_eq_iff.1 hunit with rfl | rfl
      · rwa [Int.natCast_one, Int.tdiv_one]
      · rw [Int.natCast_one, Int.tdiv_neg, Int.tdiv_one]
        omega
    · have habs : (x.tdiv y).natAbs = x.natAbs / y.natAbs := Int.natAbs_tdiv x y
      have hhalf : x.natAbs / y.natAbs ≤ x.natAbs / 2 := Nat.div_le_div_left (by omega) (by decide)
      omega

theorem isSigned_tmod {x y : Int} (hy : IsSigned y) (hzero : y ≠ 0) : IsSigned (x.tmod y) := by
  have habs : (x.tmod y).natAbs = x.natAbs % y.natAbs := Int.natAbs_tmod x y
  have hlt : x.natAbs % y.natAbs < y.natAbs := Nat.mod_lt _ (Int.natAbs_pos.2 hzero)
  rw [isSigned_iff] at hy ⊢
  omega

end Number

/-! ### Arithmetic -/

namespace BinaryOp

variable {op : BinaryOp} {x y : Int}

/-- What is tested is the result itself, but for the remainder. -/
theorem integral?_eq (hop : op ∈ calculating) (hx : IsSigned x) (hy : IsSigned y)
    (hzero : op.divides = true → y ≠ 0) : op.integral? x y =
      if IsSigned (op.result x y) ∧ ¬ op.Overlooks x y then some (op.result x y) else none := by
  have hplain : op ≠ .modulo →
      (IsSigned (op.result x y) ↔ IsSigned (op.result x y) ∧ ¬ op.Overlooks x y) :=
    fun hne => ⟨fun h => ⟨h, fun hover => hne hover.1⟩, And.left⟩
  cases op with
  | add | subtract | multiply | divide => exact if_congr (hplain nofun) rfl rfl
  | modulo =>
    have hfits : IsSigned (x.tmod y) := isSigned_tmod hy (hzero rfl)
    have hquotient := isSigned_tdiv_iff hx (hzero rfl)
    show (if IsSigned (x.tdiv y) then some (x.tmod y) else none) = _
    refine if_congr ?_ rfl rfl
    rw [hquotient]
    exact ⟨fun h => ⟨hfits, fun hover => h hover.2⟩, fun h hcorner => h.2 ⟨rfl, hcorner⟩⟩
  | _ => exact absurd hop (by decide)

/-! ### Comparisons -/

theorem holds_compare (hop : op ∈ [less, lessOrEqual, greater, greaterOrEqual]) (x y : Int) :
    op.holds (compare x y) = op.relates x y := by
  rw [Bool.eq_iff_iff]
  cases op with
  | less =>
    show (compare x y).isLT = true ↔ decide (x < y) = true
    rw [Ordering.isLT_iff_eq_lt, compare_lt_iff_lt, decide_eq_true_iff]
  | lessOrEqual =>
    show (compare x y).isLE = true ↔ decide (x ≤ y) = true
    rw [Int.isLE_compare, decide_eq_true_iff]
  | greater =>
    show (compare x y).isGT = true ↔ decide (y < x) = true
    rw [Ordering.isGT_iff_eq_gt, compare_gt_iff_gt, decide_eq_true_iff]
  | greaterOrEqual =>
    show (compare x y).isGE = true ↔ decide (y ≤ x) = true
    rw [Int.isGE_compare, decide_eq_true_iff]
  | _ => exact absurd hop (by decide)

/-- Comparing rounded integers says what comparing the integers says, unless rounding makes them one. -/
theorem relates_rounded (h : rounded x = rounded y → x = y) :
    op.relates (rounded x) (rounded y) = op.relates x y := by
  have heq : rounded x = rounded y ↔ x = y := ⟨h, congrArg rounded⟩
  have hle := rounded_le_iff h
  have hge := rounded_le_iff fun hrounded => (h hrounded.symm).symm
  have hlt : rounded x < rounded y ↔ x < y := by rw [← not_le, ← not_le, hge]
  have hgt : rounded y < rounded x ↔ y < x := by rw [← not_le, ← not_le, hle]
  cases op with
  | equal => exact decide_eq_decide.2 heq
  | notEqual => exact congrArg not (decide_eq_decide.2 heq)
  | less => exact decide_eq_decide.2 hlt
  | lessOrEqual => exact decide_eq_decide.2 hle
  | greater => exact decide_eq_decide.2 hgt
  | _ => exact decide_eq_decide.2 hge

end BinaryOp

namespace Value

variable {op : BinaryOp} {x y : Int}

theorem calculate_of_integral? (hx : IsSigned x) (hy : IsSigned y) (hzero : op.divides = true → y ≠ 0) :
    calculate op (.int x) (.int y) =
      (op.integral? x y).elim (approximate op (.int x) (.int y)) fun n => .ok (int n) := by
  have hguard : ¬ ((op.divides && y == 0) = true) := by
    rw [Bool.and_eq_true, beq_iff_eq]
    exact fun h => hzero h.1 h.2
  rw [calculate, signed?_int hx, signed?_int hy]
  refine (if_neg hguard).trans ?_
  cases op.integral? x y with
  | none => rfl
  | some n => rfl

theorem calculate_zero (hdivides : op.divides = true) (hx : IsSigned x) :
    calculate op (.int x) (.int 0) = .error .divisionByZero := by
  rw [calculate, signed?_int hx, signed?_int (by decide), hdivides]
  rfl

theorem float_of_isFinite {d : Float} (h : d.isFinite = true) : float d = .number (.float d) := if_pos h

theorem approximate_of_isFinite {d : Float} (hguard : (op.divides && ofInt y == 0) = false)
    (hd : op.approximate? (ofInt x) (ofInt y) = some d) (hfinite : d.isFinite = true) :
    approximate op (.int x) (.int y) = .ok (.number (.float d)) := by
  have hfirst : (Number.int x).toFloat = ofInt x := rfl
  have hsecond : (Number.int y).toFloat = ofInt y := rfl
  rw [approximate, hfirst, hsecond, hguard, if_neg Bool.false_ne_true, hd]
  exact congrArg Except.ok (float_of_isFinite hfinite)

theorem binary_of_calculating (hop : op ∈ BinaryOp.calculating) (a b : Number) :
    binary op (.number a) (.number b) = calculate op a b := by
  cases op with
  | add | subtract | multiply | divide | modulo => rfl
  | _ => exact absurd hop (by decide)

/-- A result that does not fit is a finite double. -/
theorem approximate_of_not_isSigned (hop : op ∈ BinaryOp.calculating) (hx : IsSigned x) (hy : IsSigned y)
    (hzero : op.divides = true → y ≠ 0) (h : ¬ IsSigned (op.result x y)) :
    ∃ d, op.approximate? (ofInt x) (ofInt y) = some d ∧ d.isFinite = true ∧
      approximate op (.int x) (.int y) = .ok (.number (.float d)) := by
  have hx' := natAbs_lt_of_fits (.inl hx)
  have hy' := natAbs_lt_of_fits (.inl hy)
  cases op with
  | add =>
    have hfinite := isFinite_add_ofInt hx' hy'
    exact ⟨_, rfl, hfinite, approximate_of_isFinite rfl rfl hfinite⟩
  | subtract =>
    have hfinite := isFinite_sub_ofInt hx' hy'
    exact ⟨_, rfl, hfinite, approximate_of_isFinite rfl rfl hfinite⟩
  | multiply =>
    have hfinite := isFinite_mul_ofInt hx' hy'
    exact ⟨_, rfl, hfinite, approximate_of_isFinite rfl rfl hfinite⟩
  | divide =>
    obtain ⟨rfl, rfl⟩ := not_not.1 (mt (isSigned_tdiv_iff hx (hzero rfl)).2 h)
    have hfinite : (ofInt (-Int.pow 2 63) / ofInt (-1)).isFinite = true := by decide +kernel
    exact ⟨_, rfl, hfinite, approximate_of_isFinite (by decide +kernel) rfl hfinite⟩
  | modulo => exact absurd (isSigned_tmod hy (hzero rfl)) h
  | _ => exact absurd hop (by decide)

/-! ### Comparisons -/

section

variable (hx : x.natAbs < 2 ^ 64) (hy : y.natAbs < 2 ^ 64)

include hx hy

theorem equal_int : equal (.int x) (.int y) = decide (rounded x = rounded y) := by
  show (ofInt x == ofInt y) = _
  rw [Bool.eq_iff_iff, decide_eq_true_iff]
  exact beq_ofInt_iff hx hy

theorem order?_int : order? (.int x) (.int y) = some (compare (rounded x) (rounded y)) := by
  show (if ofInt x < ofInt y then some Ordering.lt else if ofInt x == ofInt y then some .eq
    else if ofInt y < ofInt x then some .gt else none) = _
  simp only [lt_ofInt_iff hx hy, lt_ofInt_iff hy hx, beq_ofInt_iff hx hy]
  rcases lt_trichotomy (rounded x) (rounded y) with h | h | h
  · rw [if_pos h, compare_lt_iff_lt.2 h]
  · rw [if_neg (not_lt.2 h.ge), if_pos h, compare_eq_iff_eq.2 h]
  · rw [if_neg (not_lt.2 h.le), if_neg h.ne', if_pos h, compare_gt_iff_gt.2 h]

theorem comparison_int (op : BinaryOp) :
    comparison op (.int x) (.int y) = .ok (.bool (op.holds (compare (rounded x) (rounded y)))) := by
  rw [comparison, order?_int hx hy]

theorem binary_of_comparing (hop : op ∈ BinaryOp.comparing) :
    binary op (.int x) (.int y) = .ok (.bool (op.relates (rounded x) (rounded y))) := by
  have hequal := equal_int hx hy
  have hordered : op ∈ [BinaryOp.less, .lessOrEqual, .greater, .greaterOrEqual] →
      comparison op (.int x) (.int y) = .ok (.bool (op.relates (rounded x) (rounded y))) := by
    intro hop
    rw [comparison_int hx hy, BinaryOp.holds_compare hop]
  cases op with
  | equal => exact congrArg (fun b => Except.ok (Value.bool b)) hequal
  | notEqual => exact congrArg (fun b => Except.ok (Value.bool !b)) hequal
  | less | lessOrEqual | greater | greaterOrEqual => exact hordered (by decide)
  | _ => exact absurd hop (by decide)

end

end Value

namespace Expr

variable {callables : Callables} {scope : Scope} {lhs rhs : Expr}

theorem eval_binary {op : BinaryOp} (hop : op ∈ BinaryOp.calculating ++ BinaryOp.comparing)
    {left right : Value} (hl : lhs.eval callables scope = .ok left)
    (hr : rhs.eval callables scope = .ok right) :
    (Expr.binary op lhs rhs).eval callables scope = left.binary op right := by
  have hand : op ≠ .and := by
    rintro rfl
    exact absurd hop (by decide)
  have hor : op ≠ .or := by
    rintro rfl
    exact absurd hop (by decide)
  rw [eval, hl, hr]
  · rfl
  · exact hand
  · exact hor

/-- A scope with two integers. -/
def operands (x y : Int) : Scope := .ofContext [("a", .int x), ("b", .int y)]

theorem eval_first (callables : Callables) (x y : Int) :
    (Expr.path "a" []).eval callables (operands x y) = .ok (.int x) := rfl

theorem eval_second (callables : Callables) (x y : Int) :
    (Expr.path "b" []).eval callables (operands x y) = .ok (.int y) := rfl

variable {x y : Int}

/-- Arithmetic on 64-bit integers: a divisor of zero is an error, a result that fits is exact but for the
remainder of the least integer by minus one, and one that does not fit is a finite double. -/
theorem eval_calculation (hx : IsSigned x) (hy : IsSigned y) (hl : lhs.eval callables scope = .ok (.int x))
    (hr : rhs.eval callables scope = .ok (.int y)) {op : BinaryOp} (hop : op ∈ BinaryOp.calculating) :
    let outcome := (Expr.binary op lhs rhs).eval callables scope
    let result := op.result x y
    (op.divides = true ∧ y = 0 → outcome = .error .divisionByZero) ∧
      (¬ (op.divides = true ∧ y = 0) →
        (IsSigned result → ¬ op.Overlooks x y → outcome = .ok (.int result)) ∧
        (op.Overlooks x y → result = 0 ∧ outcome = .ok (.number (.float (-0.0)))) ∧
        (¬ IsSigned result → ∃ d, op.approximate? (ofInt x) (ofInt y) = some d ∧ d.isFinite = true ∧
          outcome = .ok (.number (.float d)))) := by
  intro outcome result
  have houtcome : outcome = Value.calculate op (.int x) (.int y) :=
    (eval_binary (List.mem_append_left _ hop) hl hr).trans (Value.binary_of_calculating hop _ _)
  rw [houtcome]
  constructor
  · rintro ⟨hdivides, rfl⟩
    exact Value.calculate_zero hdivides hx
  · intro hnonzero
    have hzero : op.divides = true → y ≠ 0 := fun hdivides he => hnonzero ⟨hdivides, he⟩
    rw [Value.calculate_of_integral? hx hy hzero, BinaryOp.integral?_eq hop hx hy hzero]
    refine ⟨fun hfits hover => ?_, fun hover => ?_, fun hfits => ?_⟩
    · rw [if_pos ⟨hfits, hover⟩, Option.elim_some]
    · obtain ⟨rfl, rfl, rfl⟩ := hover
      exact ⟨rfl, rfl⟩
    · rw [if_neg fun h => hfits h.1, Option.elim_none]
      exact Value.approximate_of_not_isSigned hop hx hy hzero hfits

theorem eval_calculation_least :
    (IsSigned 4294967296 ∧ IsSigned (-2147483648) ∧ BinaryOp.multiply ∈ BinaryOp.calculating) ∧
      (Expr.binary .multiply (.path "a" []) (.path "b" [])).eval ⟨[], []⟩
        (operands 4294967296 (-2147483648)) = .ok (.int (-9223372036854775808)) := by
  have hleft : IsSigned 4294967296 := by decide
  have hright : IsSigned (-2147483648) := by decide
  have hop : BinaryOp.multiply ∈ BinaryOp.calculating := by decide
  have h := eval_calculation hleft hright (eval_first ⟨[], []⟩ _ _) (eval_second ⟨[], []⟩ _ _) hop
  exact ⟨⟨hleft, hright, hop⟩, (h.2 (by decide)).1 (by decide) (by decide)⟩

/-- The remainder that is left out is zero, an integer, and comes out as a double. -/
theorem remainder_of_least_not_integer :
    (¬ ∀ (callables : Callables) (scope : Scope) (op : BinaryOp) (lhs rhs : Expr) (x y : Int),
      op ∈ BinaryOp.calculating → IsSigned x → IsSigned y → lhs.eval callables scope = .ok (.int x) →
      rhs.eval callables scope = .ok (.int y) → ¬ (op.divides = true ∧ y = 0) → IsSigned (op.result x y) →
      (Expr.binary op lhs rhs).eval callables scope = .ok (.int (op.result x y))) ∧
    renderText "#(a % b)" (.dict [("a", .int (-9223372036854775808)), ("b", .int (-1))]) = .ok "-0.0" := by
  refine ⟨fun h => ?_, Resolve.ok_of_toOption (by decide +kernel)⟩
  have hexact := h ⟨[], []⟩ (operands (-9223372036854775808) (-1)) .modulo (.path "a" []) (.path "b" []) _ _
    (by decide) (by decide) (by decide) (eval_first _ _ _) (eval_second _ _ _) (by decide) (by decide)
  have hdouble : (Expr.binary .modulo (.path "a" []) (.path "b" [])).eval ⟨[], []⟩
      (operands (-9223372036854775808) (-1)) = .ok (.number (.float (-0.0))) := rfl
  rw [hdouble] at hexact
  cases hexact

/-- Comparisons of integers are those of the rounded ones. They are exact for two integers exactly if these
are equal or not rounded to the same one, so for all integers of 53 binary digits or fewer; and no integer is
found greater than one that is not less. -/
theorem eval_comparisons (hx : IsSigned x ∨ IsUnsigned x) (hy : IsSigned y ∨ IsUnsigned y)
    (hl : lhs.eval callables scope = .ok (.int x)) (hr : rhs.eval callables scope = .ok (.int y)) :
    let outcome (op : BinaryOp) := (Expr.binary op lhs rhs).eval callables scope
    (∀ op ∈ BinaryOp.comparing, outcome op = .ok (.bool (op.relates (rounded x) (rounded y)))) ∧
      ((∀ op ∈ BinaryOp.comparing, outcome op = .ok (.bool (op.relates x y))) ↔
        (rounded x = rounded y → x = y)) ∧
      (x ≤ y → outcome .lessOrEqual = .ok (.bool true)) ∧
      (x.natAbs ≤ 2 ^ 53 → y.natAbs ≤ 2 ^ 53 →
        ∀ op ∈ BinaryOp.comparing, outcome op = .ok (.bool (op.relates x y))) := by
  intro outcome
  have houtcome : ∀ op ∈ BinaryOp.comparing,
      outcome op = .ok (.bool (op.relates (rounded x) (rounded y))) :=
    fun op hop => (eval_binary (List.mem_append_right _ hop) hl hr).trans
      (Value.binary_of_comparing (natAbs_lt_of_fits hx) (natAbs_lt_of_fits hy) hop)
  have hexact : (rounded x = rounded y → x = y) →
      ∀ op ∈ BinaryOp.comparing, outcome op = .ok (.bool (op.relates x y)) := by
    intro h op hop
    rw [houtcome op hop, BinaryOp.relates_rounded h]
  refine ⟨houtcome, ⟨fun h hrounded => ?_, hexact⟩, fun hle => ?_, fun hx' hy' => hexact ?_⟩
  · have hequal := (houtcome .equal (by decide)).symm.trans (h .equal (by decide))
    have hsame : (rounded x == rounded y) = (x == y) := Value.bool.inj (Except.ok.inj hequal)
    rwa [beq_iff_eq.2 hrounded, eq_comm, beq_iff_eq] at hsame
  · rw [houtcome .lessOrEqual (by decide)]
    exact congrArg (fun b => Except.ok (Value.bool b)) (decide_eq_true (rounded_mono hle))
  · rw [rounded_of_natAbs_le hx', rounded_of_natAbs_le hy']
    exact id

theorem eval_comparisons_neighbours :
    (IsSigned 9223372036854775807 ∧ IsUnsigned 9223372036854775808) ∧
      (Expr.binary .equal (.path "a" []) (.path "b" [])).eval ⟨[], []⟩
        (operands 9223372036854775807 9223372036854775808) = .ok (.bool true) := by
  have hleft : IsSigned 9223372036854775807 := by decide
  have hright : IsUnsigned 9223372036854775808 := by decide
  have h := eval_comparisons (.inl hleft) (.inr hright) (eval_first ⟨[], []⟩ _ _)
    (eval_second ⟨[], []⟩ _ _)
  have hrounded : BinaryOp.equal.relates (rounded 9223372036854775807)
      (rounded 9223372036854775808) = true := by decide +kernel
  exact ⟨⟨hleft, hright⟩, hrounded ▸ h.1 .equal (by decide)⟩

/-- So two different integers may compare equal. -/
theorem different_integers_equal :
    (¬ ∀ (callables : Callables) (scope : Scope) (op : BinaryOp) (lhs rhs : Expr) (x y : Int),
      op ∈ BinaryOp.comparing → IsSigned x ∨ IsUnsigned x → IsSigned y ∨ IsUnsigned y →
      lhs.eval callables scope = .ok (.int x) → rhs.eval callables scope = .ok (.int y) →
      (Expr.binary op lhs rhs).eval callables scope = .ok (.bool (op.relates x y))) ∧
    renderText "#(a == b)" (.dict [("a", .int 9007199254740993), ("b", .int 9007199254740992)]) =
      .ok "true" := by
  refine ⟨fun h => ?_, Resolve.ok_of_toOption (by decide +kernel)⟩
  have hexact := h ⟨[], []⟩ (operands 9007199254740993 9007199254740992) .equal (.path "a" [])
    (.path "b" []) _ _ (by decide) (.inl (by decide)) (.inl (by decide)) (eval_first _ _ _)
    (eval_second _ _ _)
  have hequal : (Expr.binary .equal (.path "a" []) (.path "b" [])).eval ⟨[], []⟩
      (operands 9007199254740993 9007199254740992) = .ok (.bool true) := rfl
  rw [hequal] at hexact
  cases hexact

end Expr

end Templating
