import Templating.Error.Basic

/-!
# Files

What opening a path answers, for every text of a path: the text of a file, or why there is none.
The texts that can be answered are finitely many.
-/

namespace Templating

structure Files where
  /-- The text of the file that a text of a path names. -/
  read : String → Except ReadFailure String
  /-- All texts of files. -/
  texts : List String
  mem_texts : ∀ {path text}, read path = .ok text → text ∈ texts

namespace Files

/-- The files about which is known what opening them answers; others do not exist. -/
def ofAnswers (answers : Table (Except ReadFailure String)) : Files where
  read path := (Table.get? answers path).getD (.error .missing)
  texts := answers.filterMap fun (_, answer) => answer.toOption
  mem_texts := by
    intro path text h
    cases hget : Table.get? answers path with
    | none => simp [hget] at h
    | some answer =>
      refine List.mem_filterMap.2 ⟨_, Table.mem_of_get? hget, ?_⟩
      simp only [hget, Option.getD_some] at h
      simp [h, Except.toOption]

end Files

end Templating
