import Templating.Document.Basic

/-!
# Deciding equality

Expressions and nodes hold lists of their own kind, so that their equality is computed by functions of
its own. What these call the same is equal, which decides equality of nodes and of documents.
-/

namespace Templating

/-! ### Expressions -/

namespace Expr

mutual

theorem eq_of_same : ∀ a b : Expr, same a b = true → a = b
  | .literal a, b, h => by
    cases b <;> simp_all [same]
  | .path a as, b, h => by
    cases b <;> simp_all [same]
  | .unary o a, b, h => by
    cases b with
    | unary p b =>
      simp only [same, Bool.and_eq_true, beq_iff_eq] at h
      rw [h.1, eq_of_same a b h.2]
    | _ => simp [same] at h
  | .binary o a b, c, h => by
    cases c with
    | binary p c d =>
      simp only [same, Bool.and_eq_true, beq_iff_eq] at h
      rw [h.1.1, eq_of_same a c h.1.2, eq_of_same b d h.2]
    | _ => simp [same] at h
  | .call f as, b, h => by
    cases b with
    | call g bs =>
      simp only [same, Bool.and_eq_true, beq_iff_eq] at h
      rw [h.1, eq_of_sameAll as bs h.2]
    | _ => simp [same] at h

theorem eq_of_sameAll : ∀ as bs : List Expr, sameAll as bs = true → as = bs
  | [], bs, h => by
    cases bs with
    | nil => rfl
    | cons b bs => simp [sameAll] at h
  | a :: as, bs, h => by
    cases bs with
    | nil => simp [sameAll] at h
    | cons b bs =>
      simp only [sameAll, Bool.and_eq_true] at h
      rw [eq_of_same a b h.1, eq_of_sameAll as bs h.2]

end

mutual

theorem same_self : ∀ a : Expr, same a a = true
  | .literal a => by simp [same]
  | .path a as => by simp [same]
  | .unary o a => by simp [same, same_self a]
  | .binary o a b => by simp [same, same_self a, same_self b]
  | .call f as => by simp [same, sameAll_self as]

theorem sameAll_self : ∀ as : List Expr, sameAll as as = true
  | [] => rfl
  | a :: as => by simp [sameAll, same_self a, sameAll_self as]

end

theorem same_iff {a b : Expr} : same a b = true ↔ a = b :=
  ⟨eq_of_same a b, fun h => h ▸ same_self a⟩

theorem sameAll_iff {as bs : List Expr} : sameAll as bs = true ↔ as = bs :=
  ⟨eq_of_sameAll as bs, fun h => h ▸ sameAll_self as⟩

end Expr

/-! ### Nodes -/

namespace Node

mutual

theorem eq_of_same : ∀ a b : Node, same a b = true → a = b
  | .raw a, b, h => by cases b <;> simp_all [same]
  | .expression a, b, h => by cases b <;> simp_all [same, Expr.same_iff]
  | .importing k, b, h => by cases b <;> simp_all [same]
  | .loop v c body, b, h => by
    cases b with
    | loop w d other =>
      simp only [same, Bool.and_eq_true, beq_iff_eq, Expr.same_iff] at h
      rw [h.1.1, h.1.2, eq_of_sameAll body other h.2]
    | _ => simp [same] at h
  | .conditional as, b, h => by
    cases b with
    | conditional bs => rw [eq_of_sameBranches as bs (by simpa [same] using h)]
    | _ => simp [same] at h
  | .extend t as, b, h => by
    cases b with
    | extend u bs =>
      simp only [same, Bool.and_eq_true, beq_iff_eq] at h
      rw [h.1, eq_of_sameExports as bs h.2]
    | _ => simp [same] at h
  | .exporting k body, b, h => by
    cases b with
    | exporting l other =>
      simp only [same, Bool.and_eq_true, beq_iff_eq] at h
      rw [h.1, eq_of_sameAll body other h.2]
    | _ => simp [same] at h
  | .custom n p none, b, h => by
    cases b with
    | custom m q body => cases body <;> simp_all [same, Expr.sameAll_iff]
    | _ => simp [same] at h
  | .custom n p (some body), b, h => by
    cases b with
    | custom m q other =>
      cases other with
      | none => simp [same] at h
      | some other =>
        simp only [same, Bool.and_eq_true, beq_iff_eq, Expr.sameAll_iff] at h
        rw [h.1.1, h.1.2, eq_of_sameAll body other h.2]
    | _ => simp [same] at h

theorem eq_of_sameAll : ∀ as bs : List Node, sameAll as bs = true → as = bs
  | [], bs, h => by
    cases bs with
    | nil => rfl
    | cons b bs => simp [sameAll] at h
  | a :: as, bs, h => by
    cases bs with
    | nil => simp [sameAll] at h
    | cons b bs =>
      simp only [sameAll, Bool.and_eq_true] at h
      rw [eq_of_same a b h.1, eq_of_sameAll as bs h.2]

theorem eq_of_sameBranches :
    ∀ as bs : List (Option Expr × List Node), sameBranches as bs = true → as = bs
  | [], bs, h => by
    cases bs with
    | nil => rfl
    | cons b bs => simp [sameBranches] at h
  | (c, a) :: as, bs, h => by
    cases bs with
    | nil => cases c <;> simp [sameBranches] at h
    | cons b bs =>
      obtain ⟨d, b⟩ := b
      have hc : c = d ∧ sameAll a b = true ∧ sameBranches as bs = true := by
        cases c <;> cases d <;> simp_all [sameBranches, Expr.same_iff]
      rw [hc.1, eq_of_sameAll a b hc.2.1, eq_of_sameBranches as bs hc.2.2]

theorem eq_of_sameExports :
    ∀ as bs : List (String × Export), sameExports as bs = true → as = bs
  | [], bs, h => by
    cases bs with
    | nil => rfl
    | cons b bs => simp [sameExports] at h
  | (k, i, a) :: as, bs, h => by
    cases bs with
    | nil => simp [sameExports] at h
    | cons b bs =>
      obtain ⟨l, j, b⟩ := b
      simp only [sameExports, Bool.and_eq_true, beq_iff_eq] at h
      rw [h.1.1.1, h.1.1.2, eq_of_sameAll a b h.1.2, eq_of_sameExports as bs h.2]

end

mutual

theorem same_self : ∀ a : Node, same a a = true
  | .raw a => by simp [same]
  | .expression a => by simp [same, Expr.same_self]
  | .importing k => by simp [same]
  | .loop v c body => by simp [same, Expr.same_self, sameAll_self body]
  | .conditional as => by simp [same, sameBranches_self as]
  | .extend t as => by simp [same, sameExports_self as]
  | .exporting k body => by simp [same, sameAll_self body]
  | .custom n p none => by simp [same, Expr.sameAll_self]
  | .custom n p (some body) => by simp [same, Expr.sameAll_self, sameAll_self body]

theorem sameAll_self : ∀ as : List Node, sameAll as as = true
  | [] => by simp [sameAll]
  | a :: as => by simp [sameAll, same_self a, sameAll_self as]

theorem sameBranches_self : ∀ as : List (Option Expr × List Node), sameBranches as as = true
  | [] => by simp [sameBranches]
  | (none, a) :: as => by simp [sameBranches, sameAll_self a, sameBranches_self as]
  | (some c, a) :: as => by
    simp [sameBranches, Expr.same_self, sameAll_self a, sameBranches_self as]

theorem sameExports_self : ∀ as : List (String × Export), sameExports as as = true
  | [] => by simp [sameExports]
  | (k, i, a) :: as => by simp [sameExports, sameAll_self a, sameExports_self as]

end

theorem same_iff {a b : Node} : same a b = true ↔ a = b :=
  ⟨eq_of_same a b, fun h => h ▸ same_self a⟩

instance : DecidableEq Node := fun _ _ => decidable_of_iff _ same_iff

end Node

deriving instance DecidableEq for Document

end Templating
