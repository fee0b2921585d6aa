/-!
# Sets of names

A set of names is a list without repetitions, sorted. Membership is that of the list.
-/

namespace Templating

/-- Distinct names in increasing order. -/
abbrev Names := List String

namespace Names

def insert (name : String) : Names → Names
  | [] => [name]
  | n :: names =>
    if name < n then name :: n :: names
    else if name = n then n :: names
    else n :: insert name names

def union (names more : Names) : Names := more.foldl (fun names name => insert name names) names

def ofList (names : List String) : Names := union [] names

/-- Whether every name of the first set is in the second. -/
def subset (names others : Names) : Bool := names.all others.contains

theorem mem_insert {names : Names} {name n : String} :
    n ∈ insert name names ↔ n = name ∨ n ∈ names := by
  induction names with
  | nil => simp [insert]
  | cons m names ih =>
    simp only [insert]
    split
    · simp
    · split
      · next h => simp [h]
      · simp only [List.mem_cons, ih]
        exact ⟨fun h => by rcases h with h | h | h <;> simp [h],
          fun h => by rcases h with h | h | h <;> simp [h]⟩

theorem mem_union {names more : Names} {n : String} :
    n ∈ union names more ↔ n ∈ names ∨ n ∈ more := by
  induction more generalizing names with
  | nil => simp [union]
  | cons m more ih =>
    simp only [union, List.foldl_cons] at ih ⊢
    rw [ih, mem_insert, List.mem_cons, or_comm (a := n = m), or_assoc]

theorem mem_ofList {names : List String} {n : String} : n ∈ ofList names ↔ n ∈ names := by
  simp [ofList, mem_union]

theorem subset_iff {names others : Names} :
    subset names others = true ↔ ∀ n ∈ names, n ∈ others := by
  simp [subset]

theorem pairwise_insert {names : Names} (h : names.Pairwise (· < ·)) (name : String) :
    (insert name names).Pairwise (· < ·) := by
  induction names with
  | nil => simp [insert]
  | cons m names ih =>
    rw [List.pairwise_cons] at h
    simp only [insert]
    split
    · next hlt =>
      refine List.pairwise_cons.2 ⟨?_, List.pairwise_cons.2 h⟩
      intro a ha
      rcases List.mem_cons.1 ha with rfl | ha
      · exact hlt
      · exact String.lt_trans hlt (h.1 a ha)
    · split
      · exact List.pairwise_cons.2 h
      · next hnlt hne =>
        refine List.pairwise_cons.2 ⟨?_, ih h.2⟩
        intro a ha
        rcases mem_insert.1 ha with rfl | ha
        · exact Std.lt_of_le_of_ne (String.not_lt.1 hnlt) (Ne.symm hne)
        · exact h.1 a ha

end Names

end Templating
