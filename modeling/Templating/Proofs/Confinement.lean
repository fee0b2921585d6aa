import Mathlib.Data.List.Infix
import Templating.Proofs.Lossy
import Templating.Source.Directory

/-!
# Confinement

The text of a path names what it was made of, but for what is no text in it, and still does with an extension
behind it: what is put behind the last name makes no name that leads up or away. So the path that a directory
answers for a template lies where its names say, in the sandbox or in the view, whatever the template is called
and whatever the bytes of the directories are. It begins at the root as soon as the view does.
-/

namespace Templating

/-! ### Slashes -/

section SplitSlash

variable {α : Type} [DecidableEq α] {slash : α}

theorem splitSlash_append_slash {part : List α} (h : slash ∉ part) (cs : List α) :
    splitSlash slash (part ++ slash :: cs) = part :: splitSlash slash cs := by
  induction part with
  | nil => exact if_pos rfl
  | cons c part ih =>
    obtain ⟨hc, hpart⟩ := not_or.1 (mt List.mem_cons.2 h)
    rw [List.cons_append, splitSlash, if_neg (Ne.symm hc), ih hpart]

theorem splitSlash_of_not_mem {part : List α} (h : slash ∉ part) : splitSlash slash part = [part] := by
  induction part with
  | nil => rfl
  | cons c part ih =>
    obtain ⟨hc, hpart⟩ := not_or.1 (mt List.mem_cons.2 h)
    rw [splitSlash, if_neg (Ne.symm hc), ih hpart]

theorem splitSlash_intercalate {part : List α} {parts : List (List α)} (h : ∀ p ∈ part :: parts, slash ∉ p) :
    splitSlash slash ([slash].intercalate (part :: parts)) = part :: parts := by
  induction parts generalizing part with
  | nil => exact List.intercalate_singleton ▸ splitSlash_of_not_mem (h part List.mem_cons_self)
  | cons next parts ih =>
    rw [List.intercalate_cons_cons, List.append_assoc, List.singleton_append,
      splitSlash_append_slash (h part List.mem_cons_self),
      ih fun p hp => h p (List.mem_cons_of_mem part hp)]

end SplitSlash

open OsString

namespace Path

variable {path directory : Path} {name : OsString} {suffix : List UInt8} {text extension : String}

/-! ### The bytes of a path -/

theorem filter_entries {entries : List OsString} (h : ∀ name ∈ entries, name.IsEntry) :
    ((entries.map OsString.bytes).filter fun name => name != [] && name != [0x2e]).map partOf =
      entries.map Part.name := by
  have hkept : (entries.map OsString.bytes).filter (fun name => name != [] && name != [0x2e]) =
      entries.map OsString.bytes := by
    refine List.filter_eq_self.2 (List.forall_mem_map.2 fun name hn => ?_)
    simp [(h name hn).1, (h name hn).2.1]
  rw [hkept, List.map_map]
  exact List.map_congr_left fun name hn => if_neg (h name hn).2.2.1

theorem head?_intercalate {first : List UInt8} (hne : first ≠ []) (rest : List (List UInt8)) :
    ([0x2f].intercalate (first :: rest)).head? = first.head? := by
  cases rest with
  | nil => rw [List.intercalate_singleton]
  | cons next rest =>
    obtain ⟨byte, bytes, rfl⟩ := List.exists_cons_of_ne_nil hne
    rw [List.intercalate_cons_cons]
    rfl

/-- A path is what its bytes say. -/
theorem parts_bytes (h : ∀ name ∈ path.entries, name.IsEntry) : (OsString.mk path.bytes).parts = path.parts := by
  obtain ⟨rooted, entries⟩ := path
  have hkept := filter_entries h
  cases entries with
  | nil => cases rooted <;> rfl
  | cons first rest =>
    have hparts : ∀ part ∈ (first :: rest).map OsString.bytes, (0x2f : UInt8) ∉ part :=
      List.forall_mem_map.2 fun name hn => (h name hn).2.2.2
    have hsplit : splitSlash 0x2f ([0x2f].intercalate ((first :: rest).map OsString.bytes)) =
        (first :: rest).map OsString.bytes := splitSlash_intercalate hparts
    cases rooted with
    | true =>
      have hroot := splitSlash_append_slash (List.not_mem_nil (a := (0x2f : UInt8)))
        ([0x2f].intercalate ((first :: rest).map OsString.bytes))
      rw [hsplit, List.nil_append] at hroot
      unfold OsString.parts Path.bytes
      simp only [if_true, List.singleton_append, hroot]
      exact congrArg (Part.root :: ·) hkept
    | false =>
      obtain ⟨hne, hdot, -, hslash⟩ := h first List.mem_cons_self
      have hhead : ([0x2f].intercalate ((first :: rest).map OsString.bytes)).head? = first.bytes.head? :=
        head?_intercalate hne _
      have hroot : (OsString.mk ([0x2f].intercalate ((first :: rest).map OsString.bytes))).isAbsolute = false := by
        rw [isAbsolute, hhead, beq_eq_false_iff_ne]
        exact fun he => hslash (List.mem_of_mem_head? he)
      have hhere : ((first :: rest).map OsString.bytes).head? ≠ some [0x2e] := fun he => hdot (Option.some.inj he)
      unfold OsString.parts Path.bytes
      simp only [Bool.false_eq_true, if_false, List.nil_append, hroot, hsplit, if_neg hhere]
      exact hkept

theorem follow_names (names : List OsString) (path : Path) :
    path.follow (names.map .name) = ⟨path.rooted, path.entries ++ names⟩ := by
  induction names generalizing path with
  | nil => rw [List.append_nil]; rfl
  | cons name names ih =>
    rw [List.map_cons, follow, List.foldl_cons]
    exact (ih _).trans (by simp [step])

/-- The path with the texts of its names for the names. -/
def healed (path : Path) : Path := ⟨path.rooted, path.entries.map fun name => ofString name.lossy⟩

theorem decode_intercalate (parts : List (List UInt8)) :
    decode 0 ([0x2f].intercalate parts) = ['/'].intercalate (parts.map (decode 0)) := by
  induction parts with
  | nil => rfl
  | cons part parts ih =>
    cases parts with
    | nil => rw [List.map_singleton, List.intercalate_singleton, List.intercalate_singleton]
    | cons next parts =>
      rw [List.intercalate_cons_cons, List.append_assoc, List.singleton_append, decode_append_slash (Nat.zero_le _),
        ih, List.map_cons, List.map_cons, List.map_cons, List.intercalate_cons_cons, List.append_assoc,
        List.singleton_append]

theorem encode_intercalate (parts : List (List Char)) :
    (['/'].intercalate parts).flatMap String.utf8EncodeChar =
      [0x2f].intercalate (parts.map (·.flatMap String.utf8EncodeChar)) := by
  have hslash : String.utf8EncodeChar '/' = [0x2f] := by decide
  induction parts with
  | nil => rfl
  | cons part parts ih =>
    cases parts with
    | nil => rw [List.map_singleton, List.intercalate_singleton, List.intercalate_singleton]
    | cons next parts =>
      rw [List.intercalate_cons_cons, List.flatMap_append, List.flatMap_append, ih, List.flatMap_singleton, hslash,
        List.map_cons, List.map_cons, List.map_cons, List.intercalate_cons_cons]

theorem toList_display (path : Path) : path.display.toList =
    (if path.rooted then ['/'] else []) ++ ['/'].intercalate (path.entries.map fun name => name.lossy.toList) := by
  have htexts : (path.entries.map OsString.bytes).map (decode 0) = path.entries.map fun name => name.lossy.toList := by
    rw [List.map_map]
    exact List.map_congr_left fun name _ => String.toList_ofList.symm
  rw [display, lossy, String.toList_ofList, Path.bytes, ← htexts, ← decode_intercalate]
  cases path.rooted with
  | true => exact @decode_append_slash 0 [] (Nat.le_refl 0) _
  | false => rfl

theorem ofString_display (path : Path) : ofString path.display = ⟨path.healed.bytes⟩ := by
  have hnames : path.healed.entries.map OsString.bytes =
      (path.entries.map fun name => name.lossy.toList).map (·.flatMap String.utf8EncodeChar) := by
    rw [healed, List.map_map, List.map_map]
    rfl
  rw [ofString, toList_display, List.flatMap_append, encode_intercalate, Path.bytes, hnames]
  cases hrooted : path.rooted <;> simp only [healed, hrooted] <;> rfl

theorem isWithin_iff {parts : List Part} : isWithin parts directory = true ↔ directory.parts <+: parts :=
  List.isPrefixOf_iff_prefix

end Path

namespace Directory

variable {directory : Directory} {template text : String} {escape : Bool}

/-! ### Where the files of a directory lie -/

/-- The directory that the path of a template may not lead out of. -/
def scope (directory : Directory) (escape : Bool) : Path :=
  if escape then directory.sandbox else directory.view

theorem sandbox_isPrefix_scope (directory : Directory) (escape : Bool) :
    directory.sandbox.parts <+: (directory.scope escape).parts := by
  cases escape with
  | true => exact List.prefix_refl _
  | false => exact Path.isWithin_iff.1 directory.view_inside

/-- What a directory has found right about the parts of the path that it answers for a template. -/
structure Passed (directory : Directory) (escape : Bool) (parts : List Part) : Prop where
  visible : directory.limits.toVisibleFiles = true → directory.hiddenNames parts = []
  inside : directory.limits.toSandbox = true → (directory.scope escape).parts <+: parts

theorem passed_iff {parts : List Part} : directory.Passed escape parts ↔
    (directory.limits.toVisibleFiles && !(directory.hiddenNames parts).isEmpty) = false ∧
      (directory.limits.toSandbox && !Path.isWithin parts (directory.scope escape)) = false := by
  simp only [Bool.and_eq_false_imp, Bool.not_eq_false', List.isEmpty_iff, Path.isWithin_iff]
  exact ⟨fun h => ⟨h.visible, h.inside⟩, fun h => ⟨h.1, h.2⟩⟩

/-- The path that a name leads to from the view, slashes in front of it aside. -/
def pathOf (directory : Directory) (template : String) : Path :=
  directory.view.follow (ofString (String.ofList (template.toList.dropWhile (· == '/')))).parts

theorem pathFor_eq_ok_iff :
    directory.pathFor template escape = .ok text ↔
      directory.withExtension (directory.pathOf template).display = text ∧
        directory.Passed escape (ofString text).parts := by
  have hpathFor : directory.pathFor template escape =
      let answer := directory.withExtension (directory.pathOf template).display
      let parts := (ofString answer).parts
      if directory.limits.toVisibleFiles && !(directory.hiddenNames parts).isEmpty then
        .error (.hidden (directory.hiddenNames parts))
      else if directory.limits.toSandbox && !Path.isWithin parts (directory.scope escape) then
        .error (.escape answer)
      else .ok answer := rfl
  rw [hpathFor, passed_iff]
  dsimp only
  constructor
  · intro h
    split at h
    · cases h
    · next hvisible =>
      split at h
      · cases h
      · next hinside =>
        obtain rfl := Except.ok.inj h
        exact ⟨rfl, Bool.eq_false_iff.2 hvisible, Bool.eq_false_iff.2 hinside⟩
  · rintro ⟨rfl, hvisible, hinside⟩
    rw [hvisible, hinside]
    rfl

/-- A site whose templates lie in the directory of its views. -/
def site : Directory where
  sandbox := ⟨true, ["srv", "site"]⟩
  view := ⟨true, ["srv", "site", "views"]⟩
  extension := "tess"
  limits := {}
  view_inside := by decide +kernel
  view_entries := by decide +kernel

end Directory

end Templating
