import Templating.Output.Scope
import Templating.Proofs.Lookups

/-!
# What paths lead to

A path begins in one table, the innermost frame that has its first name or else the context, and goes on
through dictionaries. What it leads to is said here without a walk: a value lies at a path if dictionaries lead
there, and a part at the front of a path blocks it if there is no dictionary at its end. Looking a path up
answers with the value, with null where only the last key is missing, or with the shortest part that blocks.
-/

namespace Templating

namespace Scope

/-! ### Where a path begins -/

/-- The table in which a name is looked up: the innermost frame that has the name, or the context if none has
it. -/
inductive Home (scope : Scope) (name : String) : Table Value → Prop where
  | frame {inner outer : List Frame} {frame : Frame} (hframes : scope.frames = inner ++ frame :: outer)
    (hinner : ∀ f ∈ inner, Table.has f name = false) (h : Table.has frame name = true) : Home scope name frame
  | context (h : ∀ f ∈ scope.frames, Table.has f name = false) : Home scope name scope.context

variable {scope : Scope} {name first key : String} {path part : List String} {v w : Value}

theorem exists_home (scope : Scope) (name : String) : ∃ home, scope.Home name home := by
  cases hfind : scope.frames.find? (Table.has · name) with
  | none =>
    rw [List.find?_eq_none] at hfind
    exact ⟨scope.context, .context fun f hf => Bool.eq_false_iff.2 (hfind f hf)⟩
  | some frame =>
    obtain ⟨h, inner, outer, hframes, hinner⟩ := List.find?_eq_some_iff_append.1 hfind
    exact ⟨frame, .frame hframes (fun f hf => by simpa using hinner f hf) h⟩

theorem findSome?_eq_none {frames : List Frame} (h : ∀ f ∈ frames, Table.has f name = false) :
    frames.findSome? (Table.get? · name) = none :=
  List.findSome?_eq_none_iff.2 fun f hf => Table.has_eq_false_iff.1 (h f hf)

theorem Home.find?_eq {home : Table Value} (h : scope.Home name home) :
    scope.find? name = Table.get? home name := by
  unfold find?
  cases h with
  | @frame inner outer frame hframes hinner h =>
    obtain ⟨v, hv⟩ := Option.isSome_iff_exists.1 h
    rw [hframes, List.findSome?_append, findSome?_eq_none hinner, Option.none_or, List.findSome?_cons, hv]
    rfl
  | context h => rw [findSome?_eq_none h, Option.none_or]

/-- Nothing but the table in which its first name is looked up counts for a path. -/
theorem Home.lookup_eq {home : Table Value} (h : scope.Home first home) (rest : List String) :
    scope.lookup first rest = (ofContext home).lookup first rest := by
  unfold lookup
  rw [h.find?_eq]
  rfl

/-! ### What lies at a path -/

/-- A value lies at a path: it is that of a name, or it is under the last key of the dictionary that lies at the
path before. -/
inductive Holds (scope : Scope) : List String → Value → Prop where
  | name {first : String} {home : Table Value} {v : Value} (hhome : scope.Home first home)
    (h : Table.get? home first = some v) : Holds scope [first] v
  | key {path : List String} {entries : Table Value} {key : String} {v : Value}
    (hpath : Holds scope path (.dict entries)) (h : Table.get? entries key = some v) :
    Holds scope (path ++ [key]) v

/-- A part at the front of a path, short of the whole, at which nothing lies or what lies there is no
dictionary. -/
structure Blocks (scope : Scope) (path part : List String) : Prop where
  nonempty : part ≠ []
  isPrefix : part <+: path
  proper : part ≠ path
  noDict : ∀ entries, ¬ scope.Holds part (.dict entries)

theorem Holds.ne_nil (h : scope.Holds path v) : path ≠ [] := by
  cases h with
  | name => exact List.cons_ne_nil _ _
  | key => exact List.concat_ne_nil _ _

theorem holds_singleton : scope.Holds [first] v ↔ scope.find? first = some v := by
  constructor
  · intro h
    generalize hpath : [first] = path at h
    cases h with
    | name hhome h =>
      obtain rfl := List.cons.inj hpath |>.1
      exact hhome.find?_eq.trans h
    | @key path _ _ _ hbefore =>
      have hnil : path = [] := by
        cases path with
        | nil => rfl
        | cons => simp at hpath
      exact absurd hnil hbefore.ne_nil
  · intro h
    obtain ⟨home, hhome⟩ := scope.exists_home first
    exact .name hhome (hhome.find?_eq.symm.trans h)

theorem holds_concat (hpath : path ≠ []) : scope.Holds (path ++ [key]) v ↔
    ∃ entries, scope.Holds path (.dict entries) ∧ Table.get? entries key = some v := by
  constructor
  · intro h
    generalize hlonger : path ++ [key] = longer at h
    cases h with
    | name => exact absurd (List.append_eq_singleton_iff.1 hlonger) (by simp [hpath])
    | key hbefore h =>
      obtain ⟨rfl, hkey⟩ := List.append_inj' hlonger rfl
      obtain rfl := (List.cons.inj hkey).1
      exact ⟨_, hbefore, h⟩
  · rintro ⟨entries, hbefore, h⟩
    exact .key hbefore h

theorem Holds.unique (h : scope.Holds path v) (hw : scope.Holds path w) : v = w := by
  induction h generalizing w with
  | name hhome h =>
    have hfind := hhome.find?_eq.trans h
    exact Option.some.inj (hfind.symm.trans (holds_singleton.1 hw))
  | key hbefore h ih =>
    obtain ⟨entries, hentries, hw⟩ := (holds_concat hbefore.ne_nil).1 hw
    obtain rfl := Value.dict.inj (ih hentries)
    exact Option.some.inj (h.symm.trans hw)

/-- Dictionaries lead to a value. -/
theorem Holds.not_blocks (h : scope.Holds path v) : ¬ scope.Blocks path part := by
  induction h with
  | name =>
    intro hblocks
    have hle := hblocks.isPrefix.length_le
    have hpos := List.length_pos_iff.2 hblocks.nonempty
    exact hblocks.proper (hblocks.isPrefix.eq_of_length (Nat.le_antisymm hle hpos))
  | @key path entries key _ hbefore _ ih =>
    intro hblocks
    rcases List.prefix_concat_iff.1 hblocks.isPrefix with hwhole | hpart
    · exact hblocks.proper hwhole
    · by_cases heq : part = path
      · exact hblocks.noDict _ (heq ▸ hbefore)
      · exact ih ⟨hblocks.nonempty, hpart, heq, hblocks.noDict⟩

/-! ### Walking along a path -/

/-- What a path is answered with. -/
inductive Answers (scope : Scope) (path : List String) : Except WriteError Value → Prop where
  | blocked {part : List String} (h : scope.Blocks path part)
    (hshortest : ∀ r, scope.Blocks path r → part.length ≤ r.length) :
    Answers scope path (.error (.expectedDictionary part))
  | found {v : Value} (h : scope.Holds path v) : Answers scope path (.ok v)
  /-- Only the last key is missing. -/
  | missing (hopen : ∀ r, ¬ scope.Blocks path r) (h : ∀ v, ¬ scope.Holds path v) :
    Answers scope path (.ok .null)

theorem Blocks.eq_of_length_le {keys : List String} (h : scope.Blocks (path ++ keys) part)
    (hlength : part.length ≤ path.length) (hpath : path.length ≤ part.length) : part = path := by
  have hprefix : part <+: path := List.prefix_of_prefix_length_le h.isPrefix (List.prefix_append path keys) hlength
  exact hprefix.eq_of_length_le hpath

/-- A walk that has come to the end of `path` goes on from the value there, if nothing in front of it blocks:
by induction on the keys that are left. -/
theorem answers_descend {value : Option Value} (hpath : path ≠ [])
    (hvalue : ∀ v, scope.Holds path v ↔ value = some v) (keys : List String)
    (hfront : ∀ r, scope.Blocks (path ++ keys) r → path.length ≤ r.length) :
    scope.Answers (path ++ keys) (descend path value keys) := by
  induction keys generalizing path value with
  | nil =>
    unfold descend
    cases value with
    | none =>
      refine .missing (fun r hr => ?_) fun v hv => ?_
      · have heq : r = path ++ [] := hr.isPrefix.eq_of_length_le (by simpa using hfront r hr)
        exact hr.proper heq
      · rw [List.append_nil, hvalue] at hv
        cases hv
    | some v =>
      rw [List.append_nil]
      exact .found ((hvalue v).2 rfl)
  | cons key keys ih =>
    unfold descend
    split
    · next entries =>
      have hdict : scope.Holds path (.dict entries) := (hvalue _).2 rfl
      have hnext : ∀ v, scope.Holds (path ++ [key]) v ↔ Table.get? entries key = some v := by
        intro v
        rw [holds_concat hpath]
        refine ⟨fun ⟨others, hothers, h⟩ => ?_, fun h => ⟨entries, hdict, h⟩⟩
        rwa [Value.dict.inj (hdict.unique hothers)]
      -- what blocks is longer than the path, at which there is a dictionary
      have hlonger : ∀ r, scope.Blocks (path ++ key :: keys) r → (path ++ [key]).length ≤ r.length := by
        intro r hr
        have hle := hfront r hr
        have hne : ¬ r.length ≤ path.length := fun hshort =>
          hr.noDict entries (hr.eq_of_length_le hshort hle ▸ hdict)
        rw [List.length_append, List.length_singleton]
        omega
      rw [List.append_cons] at hlonger ⊢
      exact ih (List.concat_ne_nil key path) hnext hlonger
    · next hno =>
      refine .blocked ⟨hpath, List.prefix_append _ _, by simp, fun entries hentries => ?_⟩ hfront
      exact hno entries ((hvalue _).1 hentries)

theorem answers_lookup (scope : Scope) (first : String) (rest : List String) :
    scope.Answers (first :: rest) (scope.lookup first rest) :=
  answers_descend (List.cons_ne_nil first []) (fun _ => holds_singleton) rest
    fun _ hr => List.length_pos_iff.2 hr.nonempty

/-! ### Answers -/

variable {answer : Except WriteError Value}

theorem Answers.refused_iff (h : scope.Answers path answer) :
    (∃ e, answer = .error e) ↔ ∃ part, scope.Blocks path part := by
  cases h with
  | blocked hblocks _ => exact ⟨fun _ => ⟨_, hblocks⟩, fun _ => ⟨_, rfl⟩⟩
  | found hv => exact ⟨fun ⟨_, he⟩ => (nomatch he), fun ⟨_, hblocks⟩ => absurd hblocks hv.not_blocks⟩
  | missing hopen _ => exact ⟨fun ⟨_, he⟩ => (nomatch he), fun ⟨part, hblocks⟩ => absurd hblocks (hopen part)⟩

theorem Answers.exists_shortest {e : WriteError} (h : scope.Answers path (.error e)) :
    ∃ part, e = .expectedDictionary part ∧ scope.Blocks path part ∧
      ∀ r, scope.Blocks path r → part.length ≤ r.length := by
  cases h with
  | blocked hblocks hshortest => exact ⟨_, rfl, hblocks, hshortest⟩

theorem Answers.eq_ok_iff (h : scope.Answers path answer) : answer = .ok v ↔ scope.Holds path v ∨
    (∀ part, ¬ scope.Blocks path part) ∧ (∀ w, ¬ scope.Holds path w) ∧ v = .null := by
  cases h with
  | blocked hblocks _ =>
    refine ⟨fun he => (nomatch he), ?_⟩
    rintro (hv | ⟨hopen, -⟩)
    · exact absurd hblocks hv.not_blocks
    · exact absurd hblocks (hopen _)
  | found hv =>
    refine ⟨fun he => .inl (Except.ok.inj he ▸ hv), ?_⟩
    rintro (hw | ⟨-, hnone, -⟩)
    · rw [hv.unique hw]
    · exact absurd hv (hnone _)
  | missing hopen hnone =>
    refine ⟨fun he => .inr ⟨hopen, hnone, (Except.ok.inj he).symm⟩, ?_⟩
    rintro (hv | ⟨-, -, rfl⟩)
    · exact absurd hv (hnone v)
    · rfl

/-- A path is refused exactly if a part at its front blocks it, and the refusal names the shortest such part,
with dots between its keys. Otherwise the answer is the value that lies at the path, or null if only the last key
is missing. The table in which the first name is found decides alone, whatever others have under that name. -/
theorem lookup_reports_shortest_block (scope : Scope) (first : String) (rest : List String) :
    ((∃ e, scope.lookup first rest = .error e) ↔ ∃ part, scope.Blocks (first :: rest) part) ∧
    (∀ e, scope.lookup first rest = .error e → ∃ part, e = .expectedDictionary part ∧
      e.message = "expected dictionary at key: " ++ ".".intercalate part ∧
      scope.Blocks (first :: rest) part ∧ ∀ r, scope.Blocks (first :: rest) r → part.length ≤ r.length) ∧
    (∀ v, scope.lookup first rest = .ok v ↔ scope.Holds (first :: rest) v ∨
      (∀ part, ¬ scope.Blocks (first :: rest) part) ∧ (∀ w, ¬ scope.Holds (first :: rest) w) ∧ v = .null) ∧
    ∀ home, scope.Home first home → scope.lookup first rest = (ofContext home).lookup first rest := by
  have hanswers := scope.answers_lookup first rest
  refine ⟨hanswers.refused_iff, fun e he => ?_, fun v => hanswers.eq_ok_iff, fun home hhome => hhome.lookup_eq rest⟩
  rw [he] at hanswers
  obtain ⟨part, rfl, hblocks, hshortest⟩ := hanswers.exists_shortest
  exact ⟨part, rfl, rfl, hblocks, hshortest⟩

/-- A frame hides the person of the context, so that the picture there is out of reach. -/
theorem lookup_reports_shortest_block_hidden :
    let place : Frame := [("index", .int 0)]
    let people : Frame := [("person", .dict [("name", .text "Bob")])]
    let ada : Value := .dict [("profile", .dict [("picture", .text "ada.png")])]
    let scope : Scope := ⟨[("person", ada)], [place, people]⟩
    scope.Home "person" people ∧
      scope.lookup "person" ["profile", "picture"] = (ofContext people).lookup "person" ["profile", "picture"] ∧
      scope.lookup "person" ["profile", "picture"] = .error (.expectedDictionary ["person", "profile"]) ∧
      scope.Blocks ["person", "profile", "picture"] ["person", "profile"] ∧
      scope.Holds ["person", "name"] (.text "Bob") := by
  intro place people ada scope
  have hhome : scope.Home "person" people := @Home.frame scope "person" [place] [] people rfl (by decide) (by decide)
  have hrefused : scope.lookup "person" ["profile", "picture"] =
      .error (.expectedDictionary ["person", "profile"]) := rfl
  have hnamed : scope.lookup "person" ["name"] = .ok (.text "Bob") := rfl
  have hpicture := scope.lookup_reports_shortest_block "person" ["profile", "picture"]
  have hname := scope.lookup_reports_shortest_block "person" ["name"]
  obtain ⟨part, he, -, hblocks, -⟩ := hpicture.2.1 _ hrefused
  obtain rfl := WriteError.expectedDictionary.inj he
  have hholds := ((hname.2.2.1 (.text "Bob")).1 hnamed).resolve_right fun ⟨_, _, hnull⟩ => nomatch hnull
  exact ⟨hhome, hpicture.2.2.2 people hhome, hrefused, hblocks, hholds⟩

end Scope

end Templating
