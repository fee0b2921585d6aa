/-!
# Tables

A table holds at most one value under each key. Its entries are a list sorted by key, so two tables
with the same entries are the same list and every walk over a table is in key order. The view of a
table is the look-up of a key, and each operation is fixed by what it does to that view.
-/

namespace Templating

/-- Entries sorted by key. -/
abbrev Table (α : Type) := List (String × α)

namespace Table

variable {α : Type}

def get? (t : Table α) (key : String) : Option α :=
  match t with
  | [] => none
  | (k, v) :: t => if key = k then some v else get? t key

def has (t : Table α) (key : String) : Bool := (get? t key).isSome

def keys (t : Table α) : List String := t.map Prod.fst

/-- The table with `value` under `key`, in place of what was there. -/
def insert (key : String) (value : α) : Table α → Table α
  | [] => [(key, value)]
  | (k, v) :: t =>
    if key < k then (key, value) :: (k, v) :: t
    else if key = k then (key, value) :: t
    else (k, v) :: insert key value t

def erase (key : String) (t : Table α) : Table α := t.filter fun entry => entry.1 != key

/-- The entries of `t`, overlaid one after the other by those of `upper`. -/
def overlay (t upper : Table α) : Table α := upper.foldl (fun t entry => insert entry.1 entry.2 t) t

/-- The table of some entries; of two under one key the later is kept. -/
def ofEntries (entries : List (String × α)) : Table α := overlay [] entries

/-- The table of some values with keys, each under its own key; of two with one key the later is kept. -/
def ofKeyed (values : List (String × α)) : Table (String × α) :=
  ofEntries (values.map fun value => (value.1, value))

/-- The table with the key that it stands under beside each value. -/
def keyed (t : Table α) : Table (String × α) := t.map fun entry => (entry.1, entry.1, entry.2)

/-! ### What each operation does to a look-up -/

@[simp] theorem get?_nil (key : String) : get? ([] : Table α) key = none := rfl

theorem get?_cons (k : String) (v : α) (t : Table α) (key : String) :
    get? ((k, v) :: t) key = if key = k then some v else get? t key := rfl

theorem mem_of_get? {t : Table α} {key : String} {value : α} (h : get? t key = some value) :
    (key, value) ∈ t := by
  induction t with
  | nil => simp at h
  | cons entry t ih =>
    obtain ⟨k, v⟩ := entry
    rw [get?_cons] at h
    split at h
    · next hk => simp_all
    · exact List.mem_cons_of_mem _ (ih h)

theorem get?_insert (t : Table α) (key : String) (value : α) (k : String) :
    get? (insert key value t) k = if k = key then some value else get? t k := by
  induction t with
  | nil => simp [insert, get?_cons]
  | cons entry t ih =>
    obtain ⟨k', v'⟩ := entry
    simp only [insert]
    split
    · simp [get?_cons]
    · split
      · next h =>
        subst h
        simp only [get?_cons]
        split <;> simp_all
      · next h =>
        simp only [get?_cons, ih]
        by_cases hk : k = k'
        · subst hk
          simp [Ne.symm h]
        · simp [hk]

theorem get?_erase (t : Table α) (key k : String) :
    get? (erase key t) k = if k = key then none else get? t k := by
  induction t with
  | nil => simp [erase]
  | cons entry t ih =>
    obtain ⟨k', v'⟩ := entry
    simp only [erase] at ih ⊢
    by_cases h : k' = key
    · subst h
      simp only [List.filter_cons, bne_self_eq_false, Bool.false_eq_true, if_false, ih, get?_cons]
      split <;> rfl
    · have hne : (k' != key) = true := by simpa using h
      simp only [List.filter_cons, hne, if_true, get?_cons, ih]
      by_cases hk : k = k'
      · subst hk
        simp [h]
      · simp [hk]

/-! ### Order -/

/-- The keys increase strictly. -/
def Sorted (t : Table α) : Prop := (keys t).Pairwise (· < ·)

theorem mem_keys_insert {t : Table α} {key : String} {value : α} {k : String} :
    k ∈ keys (insert key value t) ↔ k = key ∨ k ∈ keys t := by
  induction t with
  | nil => simp [insert, keys]
  | cons entry t ih =>
    obtain ⟨k', v'⟩ := entry
    simp only [keys] at ih
    simp only [insert]
    split
    · simp [keys]
    · split
      · next h => simp [keys, h]
      · simp only [keys, List.map_cons, List.mem_cons, ih]
        exact ⟨fun h => by rcases h with h | h | h <;> simp [h],
          fun h => by rcases h with h | h | h <;> simp [h]⟩

theorem Sorted.insert {t : Table α} (h : Sorted t) (key : String) (value : α) :
    Sorted (Table.insert key value t) := by
  induction t with
  | nil => simp [Table.insert, Sorted, keys]
  | cons entry t ih =>
    obtain ⟨k', v'⟩ := entry
    have hs : (∀ a ∈ keys t, k' < a) ∧ Sorted t := by
      simpa [Sorted, keys] using h
    simp only [Table.insert]
    split
    · next hlt =>
      refine List.pairwise_cons.2 ⟨?_, h⟩
      intro a ha
      rcases List.mem_cons.1 ha with rfl | ha
      · exact hlt
      · exact String.lt_trans hlt (hs.1 a ha)
    · split
      · next heq =>
        subst heq
        exact List.pairwise_cons.2 ⟨hs.1, hs.2⟩
      · next hnlt hne =>
        refine List.pairwise_cons.2 ⟨?_, ih hs.2⟩
        intro a ha
        rcases mem_keys_insert.1 ha with rfl | ha
        · exact Std.lt_of_le_of_ne (String.not_lt.1 hnlt) (Ne.symm hne)
        · exact hs.1 a ha

theorem Sorted.erase {t : Table α} (h : Sorted t) (key : String) : Sorted (Table.erase key t) :=
  h.sublist (List.filter_sublist.map Prod.fst)

end Table

end Templating
