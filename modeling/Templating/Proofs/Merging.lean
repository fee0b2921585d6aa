import Templating.Proofs.Bookkeeping
import Templating.Proofs.Writing

/-!
# Merged raw texts

Merging goes over the nodes of a list and puts each behind those before it, raw text onto raw text that
comes last. What comes of it is the list with every run of raw texts as one text, so no two raw texts are
left side by side, merging once more changes nothing, and nothing of it is seen in what is written.
-/

namespace Templating

open Node

namespace Document

/-! ### Node by node -/

/-- Nodes with one more behind them: raw text is put onto raw text that comes last. -/
def putBehind (nodes : List Node) (node : Node) : List Node :=
  match nodes.getLast?, node with
  | some (.raw a), .raw b => nodes.dropLast ++ [.raw (a ++ b)]
  | _, node => nodes ++ [node]

theorem putBehind_nil (node : Node) : putBehind [] node = [node] := rfl

theorem putBehind_raw_raw (nodes : List Node) (a b : String) :
    putBehind (nodes ++ [.raw a]) (.raw b) = nodes ++ [.raw (a ++ b)] := by
  simp [putBehind]

theorem putBehind_of_parted {nodes : List Node} {last node : Node}
    (h : last.isRaw = true → node.isRaw = false) :
    putBehind (nodes ++ [last]) node = nodes ++ [last] ++ [node] := by
  cases last <;> cases node <;> simp_all [putBehind, isRaw]

theorem mergeRaw_of_parted {nodes : List Node} (h : Parted nodes) : mergeRaw nodes = nodes := by
  induction nodes with
  | nil => rfl
  | cons node nodes ih =>
    obtain ⟨hnext, hrest⟩ := List.isChain_cons.1 h
    rcases mergeRaw_cons_cases node nodes with hm | ⟨a, b, rest, rfl, hb, -⟩
    · rw [hm, ih hrest]
    · rw [ih hrest] at hb
      have hraw := hnext (.raw b) (by rw [hb]; rfl) rfl
      cases hraw

/-- Of what comes last only the kind counts. -/
theorem parted_concat {nodes : List Node} {last other : Node} (h : Parted (nodes ++ [last]))
    (hkind : other.isRaw = last.isRaw) : Parted (nodes ++ [other]) := by
  obtain ⟨hnodes, -, hlast⟩ := List.isChain_append.1 h
  refine List.isChain_append.2 ⟨hnodes, .singleton other, fun x hx y hy hraw => ?_⟩
  obtain rfl : other = y := by simpa using hy
  rw [hkind]
  exact hlast x hx last rfl hraw

theorem parted_concat_concat {nodes : List Node} {last node : Node} (h : Parted (nodes ++ [last]))
    (hkinds : last.isRaw = true → node.isRaw = false) : Parted (nodes ++ [last] ++ [node]) := by
  refine List.isChain_append.2 ⟨h, .singleton node, fun x hx y hy => ?_⟩
  obtain rfl : last = x := by simpa using hx
  obtain rfl : node = y := by simpa using hy
  exact hkinds

/-- Merging keeps up with the nodes, one by one. -/
theorem mergeRaw_concat (nodes : List Node) (node : Node) :
    mergeRaw (nodes ++ [node]) = putBehind (mergeRaw nodes) node := by
  have hparted := parted_mergeRaw nodes
  rw [← mergeRaw_mergeRaw_append]
  generalize mergeRaw nodes = merged at hparted
  rcases List.eq_nil_or_concat' merged with rfl | ⟨front, last, rfl⟩
  · rw [List.nil_append, putBehind_nil]
    exact mergeRaw_of_parted (.singleton node)
  · by_cases hraw : ∃ a b, last = .raw a ∧ node = .raw b
    · obtain ⟨a, b, rfl, rfl⟩ := hraw
      have hjoin : mergeRaw (front ++ [.raw a, .raw b]) = mergeRaw (front ++ [.raw (a ++ b)]) := by
        rw [← mergeRaw_append_mergeRaw, mergeRaw_raw_raw, mergeRaw_append_mergeRaw]
      rw [List.append_assoc, putBehind_raw_raw]
      exact hjoin.trans (mergeRaw_of_parted (parted_concat hparted rfl))
    · have hkinds : last.isRaw = true → node.isRaw = false := by
        cases last <;> cases node <;> simp_all [isRaw]
      rw [putBehind_of_parted hkinds]
      exact mergeRaw_of_parted (parted_concat_concat hparted hkinds)

theorem foldl_putBehind (nodes : List Node) : nodes.foldl putBehind [] = mergeRaw nodes := by
  induction nodes using List.reverseRecOn with
  | nil => rfl
  | append_singleton nodes node ih => rw [List.foldl_append, ih, mergeRaw_concat]; rfl

/-! ### Runs of raw texts -/

/-- Nodes, and the same with each run of raw texts as one text. -/
inductive Condenses : List Node → List Node → Prop where
  | nil : Condenses [] []
  | other {node : Node} {nodes merged : List Node} (hnode : node.isRaw = false) (h : Condenses nodes merged) :
    Condenses (node :: nodes) (node :: merged)
  | run {texts : List String} {nodes merged : List Node} (hne : texts ≠ [])
    (hnext : ∀ next ∈ nodes.head?, next.isRaw = false) (h : Condenses nodes merged) :
    Condenses (texts.map .raw ++ nodes) (.raw (String.join texts) :: merged)

theorem exists_condenses (nodes : List Node) : ∃ merged, Condenses nodes merged := by
  induction nodes with
  | nil => exact ⟨[], .nil⟩
  | cons node nodes ih =>
    obtain ⟨merged, h⟩ := ih
    cases node with
    | raw a =>
      have halone : ∀ {nodes merged}, (∀ next ∈ nodes.head?, next.isRaw = false) → Condenses nodes merged →
          ∃ merged, Condenses (.raw a :: nodes) merged :=
        fun hnext h => ⟨_, .run (List.cons_ne_nil a []) hnext h⟩
      cases h with
      | nil => exact halone nofun .nil
      | other hnode h => exact halone (by simpa using hnode) (.other hnode h)
      | @run texts nodes merged hne hnext h =>
        exact ⟨_, .run (List.cons_ne_nil a texts) hnext h⟩
    | _ => exact ⟨_, .other rfl h⟩

theorem mergeRaw_cons_of_not_isRaw {node : Node} (h : node.isRaw = false) (nodes : List Node) :
    mergeRaw (node :: nodes) = node :: mergeRaw nodes := by
  rcases mergeRaw_cons_cases node nodes with hm | ⟨a, _, _, rfl, -⟩
  · exact hm
  · cases h

theorem mergeRaw_raw_of_next {nodes : List Node} (hnext : ∀ next ∈ nodes.head?, next.isRaw = false)
    (a : String) : mergeRaw (.raw a :: nodes) = .raw a :: mergeRaw nodes := by
  cases nodes with
  | nil => rfl
  | cons node nodes =>
    have hnode : node.isRaw = false := hnext node rfl
    rcases mergeRaw_cons_cases (.raw a) (node :: nodes) with hm | ⟨_, b, rest, -, hb, -⟩
    · exact hm
    · rw [mergeRaw_cons_of_not_isRaw hnode] at hb
      obtain rfl := (List.cons.inj hb).1
      cases hnode

theorem mergeRaw_texts {nodes : List Node} (hnext : ∀ next ∈ nodes.head?, next.isRaw = false)
    (a : String) (texts : List String) :
    mergeRaw ((a :: texts).map .raw ++ nodes) = .raw (String.join (a :: texts)) :: mergeRaw nodes := by
  induction texts generalizing a with
  | nil =>
    have hjoin : String.join [a] = a := by simp
    rw [hjoin]
    exact mergeRaw_raw_of_next hnext a
  | cons b texts ih =>
    have hjoin : String.join (a :: b :: texts) = String.join ((a ++ b) :: texts) := by
      simp [String.append_assoc]
    rw [hjoin, ← ih (a ++ b)]
    exact mergeRaw_raw_raw a b (texts.map .raw ++ nodes)

theorem Condenses.mergeRaw_eq {nodes merged : List Node} (h : Condenses nodes merged) :
    mergeRaw nodes = merged := by
  induction h with
  | nil => rfl
  | other hnode _ ih => rw [mergeRaw_cons_of_not_isRaw hnode, ih]
  | @run texts nodes merged hne hnext _ ih =>
    obtain ⟨a, texts, rfl⟩ := List.exists_cons_of_ne_nil hne
    rw [mergeRaw_texts hnext, ih]

theorem mergeRaw_eq_iff_condenses {nodes merged : List Node} :
    mergeRaw nodes = merged ↔ Condenses nodes merged := by
  refine ⟨?_, Condenses.mergeRaw_eq⟩
  rintro rfl
  obtain ⟨merged, h⟩ := exists_condenses nodes
  exact h.mergeRaw_eq ▸ h

/-- The nodes that are not raw stay, in their order. -/
theorem Condenses.filter_eq {nodes merged : List Node} (h : Condenses nodes merged) :
    merged.filter (!·.isRaw) = nodes.filter (!·.isRaw) := by
  induction h with
  | nil => rfl
  | other hnode _ ih => simp [hnode, ih]
  | @run texts nodes merged _ _ _ ih =>
    have htexts : (texts.map Node.raw).filter (!·.isRaw) = [] := by
      simp [List.filter_eq_nil_iff, isRaw]
    rw [List.filter_append, htexts, List.nil_append, ← ih]
    rfl

/-- Merging leaves no two raw texts side by side and every other node in its place, it makes one text of
each run of raw texts, and what is merged stays as it is when it is merged again. Whatever writes the
merged nodes comes to the same text, or to the same error, as with the nodes themselves. -/
theorem mergeRaw_normalizes (nodes : List Node) :
    nodes.foldl putBehind [] = mergeRaw nodes ∧
    Parted (mergeRaw nodes) ∧
    (∀ merged, mergeRaw nodes = merged ↔ Condenses nodes merged) ∧
    (mergeRaw nodes).filter (!·.isRaw) = nodes.filter (!·.isRaw) ∧
    mergeRaw (mergeRaw nodes) = mergeRaw nodes ∧
    ∀ (callables : Callables) (context : Table Value),
      writeNodes callables (mergeRaw nodes) context = writeNodes callables nodes context :=
  ⟨foldl_putBehind nodes, parted_mergeRaw nodes, fun _ => mergeRaw_eq_iff_condenses,
    (mergeRaw_eq_iff_condenses.1 rfl).filter_eq, mergeRaw_mergeRaw nodes,
    fun _ context => writeBody_mergeRaw (.ofContext context) nodes⟩

end Document

end Templating
