import Mathlib.Data.List.Sort
import Templating.Names
import Templating.Table

/-!
# Look-ups

What sets of names and tables are known by: a set by its members, a table by its look-ups. An
overlay is looked up in its upper table first, and there from the end.
-/

namespace Templating

/-! ### Sets of names -/

namespace Names

theorem pairwise_union {names : Names} (h : names.Pairwise (· < ·)) (more : Names) :
    (union names more).Pairwise (· < ·) := by
  induction more generalizing names with
  | nil => exact h
  | cons name more ih => exact ih (pairwise_insert h name)

theorem eq_of_mem_iff {names others : Names} (hn : names.Pairwise (· < ·))
    (ho : others.Pairwise (· < ·)) (h : ∀ name, name ∈ names ↔ name ∈ others) :
    names = others := by
  have : Std.Irrefl fun a b : String => a < b := ⟨String.lt_irrefl⟩
  exact List.Pairwise.eq_of_mem_iff hn ho h

theorem mem_foldl_union {α : Type} (part : α → Names) (parts : List α) (names : Names)
    (name : String) :
    name ∈ parts.foldl (fun names a => union names (part a)) names ↔
      name ∈ names ∨ ∃ a ∈ parts, name ∈ part a := by
  induction parts generalizing names with
  | nil => simp
  | cons a parts ih =>
    rw [List.foldl_cons, ih, mem_union]
    simp only [List.mem_cons, exists_eq_or_imp, or_assoc]

theorem pairwise_foldl_union {α : Type} (part : α → Names) (parts : List α) {names : Names}
    (h : names.Pairwise (· < ·)) :
    (parts.foldl (fun names a => union names (part a)) names).Pairwise (· < ·) := by
  induction parts generalizing names with
  | nil => exact h
  | cons a parts ih => exact ih (pairwise_union h (part a))

end Names

/-! ### Tables -/

namespace Table

variable {α β : Type}

/-- The table with every value changed by `f`. -/
def mapValues (f : α → β) (t : List (String × α)) : List (String × β) :=
  t.map fun entry => (entry.1, f entry.2)

theorem get?_mapValues (f : α → β) (t : Table α) (key : String) :
    get? (mapValues f t) key = (get? t key).map f := by
  induction t with
  | nil => rfl
  | cons entry t ih =>
    obtain ⟨k, v⟩ := entry
    simp only [mapValues, List.map_cons, get?_cons] at ih ⊢
    split
    · rfl
    · exact ih

theorem mapValues_congr {f g : α → β} {t : List (String × α)} (h : ∀ entry ∈ t, f entry.2 = g entry.2) :
    mapValues f t = mapValues g t :=
  List.map_congr_left fun entry he => by rw [h entry he]

theorem mapValues_keyed (f : α → β) (t : Table α) : mapValues (fun value => f value.2) (keyed t) = mapValues f t := by
  simp only [mapValues, keyed, List.map_map, Function.comp_def]

theorem mapValues_mapValues {γ : Type} (f : α → β) (g : β → γ) (t : List (String × α)) :
    mapValues g (mapValues f t) = mapValues (g ∘ f) t :=
  List.map_map

theorem eq_of_get?_singleton {k key : String} {v value : α} (h : get? [(k, v)] key = some value) :
    key = k ∧ value = v := by
  rw [get?_cons, get?_nil] at h
  split at h
  · next hk => exact ⟨hk, (Option.some.inj h).symm⟩
  · cases h

theorem get?_append (t u : Table α) (key : String) :
    get? (t ++ u) key = (get? t key).or (get? u key) := by
  induction t with
  | nil => rfl
  | cons entry t ih =>
    obtain ⟨k, v⟩ := entry
    simp only [List.cons_append, get?_cons]
    split
    · rfl
    · exact ih

theorem get?_overlay (t upper : Table α) (key : String) :
    get? (overlay t upper) key = (get? upper.reverse key).or (get? t key) := by
  induction upper generalizing t with
  | nil => rfl
  | cons entry upper ih =>
    obtain ⟨k, v⟩ := entry
    show get? (overlay (insert k v t) upper) key = _
    rw [ih, List.reverse_cons, get?_append, get?_insert, get?_cons, get?_nil, Option.or_assoc]
    by_cases h : key = k
    · simp [h]
    · simp [h]

theorem reverse_mapValues (f : α → β) (t : List (String × α)) :
    (mapValues f t).reverse = mapValues f t.reverse := by
  simp only [mapValues, List.map_reverse]

theorem insert_of_lt {t : Table α} {key : String} (h : ∀ k ∈ keys t, k < key) (value : α) :
    insert key value t = t ++ [(key, value)] := by
  induction t with
  | nil => rfl
  | cons entry t ih =>
    obtain ⟨k, v⟩ := entry
    obtain ⟨hk, ht⟩ := List.forall_mem_cons.1 h
    have hkey : k < key := hk
    rw [insert, if_neg (String.lt_asymm hkey), if_neg (Ne.symm (String.ne_of_lt hkey)), ih ht, List.cons_append]

theorem Sorted.ofEntries_eq {t : Table α} (h : Sorted t) : ofEntries t = t := by
  have hoverlay : ∀ lower upper : Table α, Sorted (lower ++ upper) → overlay lower upper = lower ++ upper := by
    intro lower upper hs
    induction upper generalizing lower with
    | nil => exact (List.append_nil lower).symm
    | cons entry upper ih =>
      obtain ⟨k, v⟩ := entry
      have hlt : ∀ key ∈ keys lower, key < k := by
        intro key hkey
        rw [Sorted, keys, List.map_append, List.map_cons] at hs
        exact (List.pairwise_append.1 hs).2.2 key hkey k List.mem_cons_self
      show overlay (Table.insert k v lower) upper = _
      rw [insert_of_lt hlt v, ih _ (by rwa [List.append_assoc]), List.append_assoc]
      rfl
  exact hoverlay [] t h

theorem Sorted.ofKeyed_eq {t : Table (String × α)} (h : Sorted t) (hkeys : ∀ entry ∈ t, entry.2.1 = entry.1) :
    ofKeyed (t.map Prod.snd) = t := by
  have hback : (t.map Prod.snd).map (fun value => (value.1, value)) = t := by
    have hentry : ∀ entry ∈ t, (entry.2.1, entry.2) = entry := fun entry he => Prod.ext (hkeys entry he) rfl
    rw [List.map_map]
    exact (List.map_congr_left hentry).trans (List.map_id t)
  rw [ofKeyed, hback, h.ofEntries_eq]

theorem sorted_ofEntries (entries : List (String × α)) : Sorted (ofEntries entries) := by
  have hoverlay : ∀ (upper : List (String × α)) (t : Table α), Sorted t → Sorted (overlay t upper) := by
    intro upper
    induction upper with
    | nil => exact fun t h => h
    | cons entry upper ih => exact fun t h => ih _ (h.insert entry.1 entry.2)
  exact hoverlay entries [] List.Pairwise.nil

theorem keys_keyed (t : Table α) : keys (keyed t) = keys t := by
  rw [keys, keyed, List.map_map]
  rfl

theorem keys_mapValues (f : α → β) (t : Table α) : keys (mapValues f t) = keys t := by
  simp [keys, mapValues]

theorem mem_of_mem_insert {t : Table α} {key : String} {value : α} {entry : String × α}
    (h : entry ∈ insert key value t) : entry = (key, value) ∨ entry ∈ t := by
  induction t with
  | nil => exact .inl (List.mem_singleton.1 h)
  | cons first t ih =>
    obtain ⟨k, v⟩ := first
    rw [insert] at h
    split at h
    · exact List.mem_cons.1 h
    · split at h
      · rcases List.mem_cons.1 h with h | h
        · exact .inl h
        · exact .inr (List.mem_cons_of_mem _ h)
      · rcases List.mem_cons.1 h with rfl | h
        · exact .inr List.mem_cons_self
        · exact (ih h).imp_right (List.mem_cons_of_mem _)

theorem mem_of_mem_ofEntries {entries : List (String × α)} {entry : String × α}
    (h : entry ∈ ofEntries entries) : entry ∈ entries := by
  have hoverlay : ∀ (upper : List (String × α)) (t : Table α), entry ∈ overlay t upper →
      entry ∈ t ∨ entry ∈ upper := by
    intro upper
    induction upper with
    | nil => exact fun t h => .inl h
    | cons first upper ih =>
      intro t h
      rcases ih _ h with h | h
      · rcases mem_of_mem_insert h with rfl | h
        · exact .inr List.mem_cons_self
        · exact .inl h
      · exact .inr (List.mem_cons_of_mem _ h)
  exact (hoverlay entries [] h).resolve_left List.not_mem_nil

theorem mem_of_mem_ofKeyed {values : List (String × α)} {entry : String × String × α}
    (h : entry ∈ ofKeyed values) : entry.2 ∈ values ∧ entry.2.1 = entry.1 := by
  obtain ⟨value, hvalue, rfl⟩ := List.mem_map.1 (mem_of_mem_ofEntries h)
  exact ⟨hvalue, rfl⟩

theorem has_eq_false_iff {t : Table α} {key : String} : has t key = false ↔ get? t key = none := by
  simp [has]

/-- The table of what `f` gives for some names. -/
def tabulate (f : String → Option α) (names : List String) : Table α :=
  names.filterMap fun name => (f name).map (name, ·)

theorem get?_tabulate (f : String → Option α) (names : List String) (name : String) :
    get? (tabulate f names) name = if name ∈ names then f name else none := by
  induction names with
  | nil => rfl
  | cons n names ih =>
    unfold tabulate at ih ⊢
    rw [List.filterMap_cons]
    by_cases hn : name = n
    · subst hn
      cases hf : f name with
      | none => simp [ih, hf]
      | some a => simp [get?_cons]
    · cases hf : f n with
      | none => simp [ih, hn]
      | some a => simp [get?_cons, ih, hn]

theorem keys_tabulate {f : String → Option α} {names : List String}
    (h : ∀ name ∈ names, (f name).isSome = true) : keys (tabulate f names) = names := by
  induction names with
  | nil => rfl
  | cons name names ih =>
    obtain ⟨a, ha⟩ := Option.isSome_iff_exists.1 (h name List.mem_cons_self)
    have hrest := ih fun n hn => h n (List.mem_cons_of_mem name hn)
    unfold tabulate at hrest ⊢
    rw [List.filterMap_cons, ha]
    exact congrArg (name :: ·) hrest

theorem eq_some_of_mem_tabulate {f : String → Option α} {names : List String} {entry : String × α}
    (h : entry ∈ tabulate f names) : f entry.1 = some entry.2 := by
  obtain ⟨name, -, hentry⟩ := List.mem_filterMap.1 h
  obtain ⟨a, ha, rfl⟩ := Option.map_eq_some_iff.1 hentry
  exact ha

end Table

end Templating
