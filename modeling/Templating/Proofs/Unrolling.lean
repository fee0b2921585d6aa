import Templating.Proofs.Meanings
import Templating.Proofs.Running
import Templating.Renderer.Basic

/-!
# Unrolled loops

A loop writes its body once for each item, in a scope with one frame more. The frames of a scope and its
context can be merged into one context with the same names in it, so a round is what the body alone writes in
the context with the item and its place added. Whatever paths begin with the name of the loop mean the item,
unless the name is one of those that every round has for the place.
-/

namespace Templating

/-! ### Merged contexts -/

namespace Scope

/-- The names of a scope in one context: each frame is laid over what is around it, from its last entry on,
since of several entries under a name the first counts. -/
def merged (scope : Scope) : Table Value :=
  scope.frames.foldr (fun frame around => Table.overlay around frame.reverse) scope.context

theorem get?_merged (scope : Scope) (name : String) : Table.get? scope.merged name = scope.find? name := by
  obtain ⟨context, frames⟩ := scope
  induction frames with
  | nil => rfl
  | cons frame frames ih =>
    have hpush := find?_push ⟨context, frames⟩ frame name
    rw [← ih] at hpush
    refine Eq.trans ?_ hpush.symm
    exact (Table.get?_overlay _ _ _).trans (by rw [List.reverse_reverse]; rfl)

theorem lookup_merged (scope : Scope) (first : String) (rest : List String) :
    scope.lookup first rest = (ofContext scope.merged).lookup first rest := by
  unfold lookup
  rw [find?_ofContext, get?_merged]

end Scope

/-- A context with an item under a name and, in front of that, the place of the item. -/
def roundContext (context : Table Value) (name : String) (item : Value) (index last : Nat) : Table Value :=
  Table.insert "isLast" (.bool (index == last))
    (Table.insert "isFirst" (.bool (index == 0))
      (Table.insert "index" (.int index) (Table.insert name item context)))

theorem get?_roundContext (context : Table Value) (name : String) (item : Value) (index last : Nat)
    (key : String) : Table.get? (roundContext context name item index last) key =
      (Table.get? (Frame.ofRound name item index last) key).or (Table.get? context key) := by
  unfold roundContext Frame.ofRound
  simp only [Table.get?_insert, Table.get?_nil]
  split
  · rfl
  · split
    · rfl
    · split
      · rfl
      · split <;> rfl

namespace Node

variable {callables : Callables} {scope : Scope}

theorem writeBody_eq_writeNodes_merged (nodes : List Node) :
    writeBody callables scope nodes = writeNodes callables nodes scope.merged := by
  refine writeBody_eq_of_find? fun name _ => ?_
  rw [Scope.find?_ofContext, Scope.get?_merged]

theorem writeBody_push_ofRound (nodes : List Node) (name : String) (item : Value) (index last : Nat) :
    writeBody callables (scope.push (Frame.ofRound name item index last)) nodes =
      writeNodes callables nodes (roundContext scope.merged name item index last) := by
  refine writeBody_eq_of_find? fun n _ => ?_
  rw [Scope.find?_push, Scope.find?_ofContext, get?_roundContext, Scope.get?_merged]

end Node

/-! ### Rounds one after the other -/

theorem writeRounds_eq_mapM (round : Frame → Except WriteError String) (name : String) (last index : Nat)
    (items : List Value) : writeRounds round name last index items =
      String.join <$> (items.zipIdx index).mapM fun (item, i) => round (Frame.ofRound name item i last) := by
  induction items generalizing index with
  | nil => rfl
  | cons item items ih =>
    rw [writeRounds, ih, List.zipIdx_cons, List.mapM_cons]
    dsimp only
    cases round (Frame.ofRound name item index last) with
    | error e => rfl
    | ok text =>
      cases (items.zipIdx (index + 1)).mapM fun (item, i) => round (Frame.ofRound name item i last) with
      | error e => rfl
      | ok texts => exact congrArg Except.ok String.join_cons.symm

theorem mapM_eq_error {α β ε : Type} {f : α → Except ε β} {xs : List α} {k : Nat} (hk : k < xs.length) {e : ε}
    (h : f xs[k] = .error e) (hbefore : ∀ j (hj : j < k), ∃ b, f xs[j] = .ok b) : xs.mapM f = .error e := by
  induction xs generalizing k with
  | nil => exact absurd hk (Nat.not_lt_zero k)
  | cons x xs ih =>
    rw [List.mapM_cons]
    cases k with
    | zero =>
      have hx : f x = .error e := h
      rw [hx]
      rfl
    | succ k =>
      obtain ⟨b, hb⟩ := hbefore 0 (Nat.succ_pos k)
      have hx : f x = .ok b := hb
      have hxs : xs.mapM f = .error e :=
        ih (Nat.lt_of_succ_lt_succ hk) h fun j hj => hbefore (j + 1) (Nat.succ_lt_succ hj)
      rw [hx, hxs]
      rfl

namespace Node

variable {callables : Callables} {scope : Scope} {name : String} {collection : Expr} {body : List Node}
  {items : List Value}

theorem write_loop (hitems : collection.eval callables scope = .ok (.list items)) :
    write callables scope (.loop name collection body) =
      String.join <$> items.zipIdx.mapM fun (item, i) =>
        writeBody callables (scope.push (Frame.ofRound name item i (items.length - 1))) body := by
  rw [write, hitems]
  exact writeRounds_eq_mapM _ name (items.length - 1) 0 items

theorem writeBody_singleton (node : Node) :
    writeBody callables scope [node] = write callables scope node := by
  rw [writeBody, writeBody]
  cases write callables scope node with
  | error e => rfl
  | ok text => exact congrArg Except.ok String.append_empty

end Node

/-- A loop writes what its body alone writes in the contexts of the items, one behind the other, and fails as
the first of them that fails. This is so at every depth, since no scope can be told from the context that it is
merged to. -/
theorem writeNodes_loop_unrolls {callables : Callables} {context : Table Value} {name : String}
    {collection : Expr} {items : List Value} (body : List Node)
    (hitems : collection.eval callables (.ofContext context) = .ok (.list items)) :
    let loop := Node.loop name collection body
    let round (item : Value) (index : Nat) :=
      writeNodes callables body (roundContext context name item index (items.length - 1))
    writeNodes callables [loop] context = String.join <$> items.zipIdx.mapM (fun (item, i) => round item i) ∧
      (∀ k (hk : k < items.length) e, round items[k] k = .error e →
        (∀ j (hj : j < k), ∃ text, round items[j] j = .ok text) →
          writeNodes callables [loop] context = .error e) ∧
      ∀ scope : Scope,
        (∀ first rest, scope.lookup first rest = (Scope.ofContext scope.merged).lookup first rest) ∧
        ∀ nodes, Node.writeBody callables scope nodes = writeNodes callables nodes scope.merged := by
  intro loop round
  have hunrolled : writeNodes callables [loop] context =
      String.join <$> items.zipIdx.mapM (fun (item, i) => round item i) := by
    refine (Node.writeBody_singleton loop).trans ((Node.write_loop hitems).trans ?_)
    simp only [Node.writeBody_push_ofRound]
    rfl
  refine ⟨hunrolled, fun k hk e he hbefore => ?_, fun scope =>
    ⟨scope.lookup_merged, Node.writeBody_eq_writeNodes_merged⟩⟩
  have hk' : k < items.zipIdx.length := by rwa [List.length_zipIdx]
  have hfails : items.zipIdx.mapM (fun (item, i) => round item i) = .error e := by
    refine mapM_eq_error hk' ?_ fun j hj => ?_
    · rw [List.getElem_zipIdx, Nat.zero_add]
      exact he
    · obtain ⟨text, htext⟩ := hbefore j hj
      refine ⟨text, ?_⟩
      rw [List.getElem_zipIdx, Nat.zero_add]
      exact htext
  rw [hunrolled, hfails]
  rfl

/-- Cells of rows, each with its place in its row. -/
def grid : List Node :=
  [.loop "cell" (.path "row" []) [.expression (.path "index" []), .expression (.path "cell" [])]]

theorem writeNodes_loop_unrolls_grid :
    let rows : List Value := [.list [.text "a", .text "b"], .list [.text "c"]]
    let context : Table Value := [("rows", .list rows)]
    let callables : Callables := ⟨Tags.builtin, []⟩
    (Expr.path "rows" []).eval callables (.ofContext context) = .ok (.list rows) ∧
      writeNodes callables [.loop "row" (.path "rows" []) grid] context =
        String.join <$> rows.zipIdx.mapM (fun (row, i) =>
          writeNodes callables grid (roundContext context "row" row i 1)) ∧
      writeNodes callables [.loop "row" (.path "rows" []) grid] context = .ok "0a1b0c" := by
  intro rows context callables
  have hrows : (Expr.path "rows" []).eval callables (.ofContext context) = .ok (.list rows) := rfl
  have hloop := @writeNodes_loop_unrolls callables context "row" (.path "rows" []) rows grid hrows
  exact ⟨hrows, hloop.1, rfl⟩

/-! ### The name of a loop -/

namespace Frame

/-- The names that every round has for the place of its item. -/
def placeNames : List String := ["index", "isFirst", "isLast"]

theorem get?_ofRound {name : String} (hname : name ∉ placeNames) (item : Value) (index last : Nat) :
    Table.get? (ofRound name item index last) name = some item := by
  simp only [placeNames, List.mem_cons, List.not_mem_nil, or_false, not_or] at hname
  unfold ofRound
  rw [Table.get?_insert, if_neg hname.2.2, Table.get?_insert, if_neg hname.2.1, Table.get?_insert,
    if_neg hname.1, Table.get?_insert, if_pos rfl]

end Frame

theorem Scope.lookup_push_ofRound {name : String} (hname : name ∉ Frame.placeNames) (scope : Scope)
    (item : Value) (index last : Nat) (rest : List String) :
    (scope.push (Frame.ofRound name item index last)).lookup name rest =
      Scope.descend [name] (some item) rest := by
  unfold lookup
  rw [find?_push, Frame.get?_ofRound hname, Option.some_or]

/-- The meaning of paths if those that begin with a name lead on from a value. -/
def Meaning.leading (meaning : Meaning) (name : String) (value : Value) : Meaning := fun first rest =>
  if first = name then Scope.descend [name] (some value) rest else meaning first rest

/-- In the body of a loop each path that begins with the loop's name leads on from the item of the round, as
long as the name is not one of those for the place. -/
theorem Node.loop_name_means_item {callables : Callables} {scope : Scope} {name : String}
    {collection : Expr} {items : List Value} (body : List Node) (hname : name ∉ Frame.placeNames)
    (hitems : collection.eval callables scope = .ok (.list items)) :
    let inRound (item : Value) (index : Nat) := scope.push (Frame.ofRound name item index (items.length - 1))
    write callables scope (.loop name collection body) =
        String.join <$> items.zipIdx.mapM (fun (item, i) =>
          writeBodyWith callables (Meaning.leading (inRound item i).lookup name item) body) ∧
      ∀ i (hi : i < items.length) rest,
        (Expr.path name rest).eval callables (inRound items[i] i) =
          Scope.descend [name] (some items[i]) rest := by
  intro inRound
  have hlookup : ∀ item i rest, (inRound item i).lookup name rest = Scope.descend [name] (some item) rest :=
    fun item i => scope.lookup_push_ofRound hname item i (items.length - 1)
  have hround : ∀ item i, writeBody callables (inRound item i) body =
      writeBodyWith callables (Meaning.leading (inRound item i).lookup name item) body := by
    intro item i
    -- inside nested loops the meaning is only hidden by their frames, on both sides alike
    refine writeBody_eq_writeBodyWith body fun first _ rest => ?_
    unfold Meaning.leading
    split
    · next hfirst => rw [hfirst, hlookup]
    · rfl
  refine ⟨?_, fun i hi rest => ?_⟩
  · rw [write_loop hitems]
    simp only [← hround]
    rfl
  · rw [Expr.eval]
    exact hlookup items[i] i rest

theorem Node.loop_name_means_item_people :
    let items : List Value := [.dict [("name", .text "Ada")], .dict [("name", .text "Bob")]]
    let scope : Scope := .ofContext [("xs", .list items)]
    let callables : Callables := ⟨Tags.builtin, []⟩
    "x" ∉ Frame.placeNames ∧ (Expr.path "xs" []).eval callables scope = .ok (.list items) ∧
      (Expr.path "x" ["name"]).eval callables (scope.push (Frame.ofRound "x" items[1] 1 1)) =
        Scope.descend ["x"] (some items[1]) ["name"] ∧
      Scope.descend ["x"] (some items[1]) ["name"] = .ok (.text "Bob") := by
  intro items scope callables
  have hname : "x" ∉ Frame.placeNames := by decide
  have hitems : (Expr.path "xs" []).eval callables scope = .ok (.list items) := rfl
  have hpaths := (@Node.loop_name_means_item callables scope "x" (.path "xs" []) items people hname hitems).2
  exact ⟨hname, hitems, hpaths 1 (by decide) ["name"], rfl⟩

/-- A loop may have one of these names, and then its items are out of reach: the name means the place. -/
theorem place_hides_item :
    (¬ ∀ (callables : Callables) (scope : Scope) (name : String) (items : List Value) (i : Nat)
      (hi : i < items.length) (rest : List String),
      (Expr.path name rest).eval callables
          (scope.push (Frame.ofRound name items[i] i (items.length - 1))) =
        Scope.descend [name] (some items[i]) rest) ∧
    renderText "#for(index in items):#(index)#endfor"
      (.dict [("items", .list [.text "a", .text "b"])]) = .ok "01" := by
  refine ⟨fun h => ?_, Resolve.ok_of_toOption (by decide +kernel)⟩
  have hitem := h ⟨[], []⟩ (.ofContext []) "index" [.text "a"] 0 (by decide) []
  have hplace : (Expr.path "index" []).eval ⟨[], []⟩
      ((Scope.ofContext []).push (Frame.ofRound "index" (.text "a") 0 0)) = .ok (.int 0) := rfl
  cases hplace.symm.trans hitem

end Templating
