import Templating.Proofs.Confinement

/-!
# Names in memory and in directories

Texts in memory are kept under keys, those of a directory under paths. For a name that is made of visible
parts both follow the same parts and put the extension behind the last one in the same cases, so the path
of a template is the view with the key of the template behind it, and a template that is moved from memory
into files is found under the same names. The view has to be a text for that: of a directory whose name is none,
no text is a path.
-/

namespace Templating

open OsString

/-! ### Names that are texts -/

/-- A name whose bytes are a text. -/
def OsString.IsText (name : OsString) : Prop := ofString name.lossy = name

instance (name : OsString) : Decidable name.IsText := inferInstanceAs (Decidable (_ = _))

namespace Path

variable {path : Path} {name extension : String} {parts : List String}

/-! ### Visible parts -/

/-- A name of an entry that is not hidden. -/
def IsVisible (name : String) : Prop :=
  name ≠ "" ∧ '/' ∉ name.toList ∧ name.toList.head? ≠ some '.'

instance (name : String) : Decidable (IsVisible name) := inferInstanceAs (Decidable (_ ∧ _))

theorem IsVisible.isEntry (h : IsVisible name) : (ofString name).IsEntry := by
  obtain ⟨hne, hslash, hdot⟩ := h
  refine ⟨fun he => ?_, fun he => ?_, fun he => ?_, fun he => hslash (slash_mem_of_mem_ofString he)⟩
  · exact hne (ofString_inj.1 (congrArg OsString.mk he))
  · obtain rfl : name = "." := ofString_inj.1 (congrArg OsString.mk he)
    exact hdot rfl
  · obtain rfl : name = ".." := ofString_inj.1 (congrArg OsString.mk he)
    exact hdot rfl

theorem IsVisible.isHidden_eq (h : IsVisible name) : isHidden name = false := by
  simp [isHidden, h.2.2]

theorem IsVisible.append {suffix : String} (h : IsVisible name) (hsuffix : '/' ∉ suffix.toList) :
    IsVisible (name ++ suffix) := by
  obtain ⟨hne, hslash, hdot⟩ := h
  have hlist : (name ++ suffix).toList = name.toList ++ suffix.toList := String.toList_append
  have hchars : name.toList ≠ [] := fun he => hne (String.toList_eq_nil_iff.1 he)
  refine ⟨fun he => ?_, ?_, ?_⟩
  · exact hne (String.append_eq_empty_iff.1 he).1
  · rw [hlist, List.mem_append]
    exact not_or.2 ⟨hslash, hsuffix⟩
  · rw [List.head?_eq_some_head hchars] at hdot
    rw [hlist, List.head?_append, List.head?_eq_some_head hchars]
    exact hdot

/-! ### Names written as parts -/

/-- The name that is written as some parts with a slash between two of them, behind so many slashes. -/
def written (slashes : Nat) (parts : List String) : String :=
  String.ofList (List.replicate slashes '/') ++ "/".intercalate parts

theorem dropWhile_written (hne : parts ≠ []) (h : ∀ part ∈ parts, IsVisible part) (slashes : Nat) :
    (written slashes parts).toList.dropWhile (· == '/') = ("/".intercalate parts).toList := by
  obtain ⟨first, rest, rfl⟩ := List.exists_cons_of_ne_nil hne
  obtain ⟨hfirst, hslash, -⟩ := h first List.mem_cons_self
  obtain ⟨c, cs, hchars⟩ : ∃ c cs, first.toList = c :: cs :=
    List.exists_cons_of_ne_nil fun he => hfirst (String.toList_eq_nil_iff.1 he)
  have hc : c ≠ '/' := fun he => hslash (by rw [hchars, he]; exact List.mem_cons_self)
  obtain ⟨more, hmore⟩ : ∃ more, ("/".intercalate (first :: rest)).toList = c :: more := by
    cases rest with
    | nil => exact ⟨cs, by rw [String.intercalate_singleton, hchars]⟩
    | cons next rest =>
      exact ⟨cs ++ ("/" ++ "/".intercalate (next :: rest)).toList, by
        rw [String.intercalate_cons_cons, String.append_assoc, String.toList_append, hchars]
        rfl⟩
  rw [written, String.toList_append, String.toList_ofList, hmore,
    List.dropWhile_append_of_pos fun d hd => by simp [List.eq_of_mem_replicate hd]]
  simp [hc]

theorem display_texts (rooted : Bool) (names : List String) :
    display ⟨rooted, names.map ofString⟩ = (if rooted then "/" else "") ++ "/".intercalate names := by
  have hnames : (names.map ofString).map (fun name => name.lossy.toList) = names.map String.toList := by
    rw [List.map_map]
    exact List.map_congr_left fun name _ => congrArg String.toList (lossy_ofString name)
  rw [← String.toList_inj, toList_display, hnames, String.toList_append, String.toList_intercalate]
  cases rooted <;> rfl

theorem map_ofString_lossy (h : ∀ name ∈ path.entries, name.IsText) :
    (path.entries.map lossy).map ofString = path.entries := by
  rw [List.map_map]
  exact (List.map_congr_left h).trans (List.map_id _)

theorem display_append_texts (h : ∀ name ∈ path.entries, name.IsText) (names : List String) :
    display ⟨path.rooted, path.entries ++ names.map ofString⟩ =
      (if path.rooted then "/" else "") ++ "/".intercalate (path.entries.map lossy ++ names) := by
  rw [← display_texts, List.map_append, map_ofString_lossy h]

/-- The text of a path of texts has the parts of the path. -/
theorem parts_ofString_display (hentries : ∀ name ∈ path.entries, name.IsEntry)
    (htexts : ∀ name ∈ path.entries, name.IsText) : (ofString path.display).parts = path.parts := by
  have hhealed : path.healed = path := by
    obtain ⟨rooted, entries⟩ := path
    exact congrArg (Path.mk rooted) ((List.map_congr_left htexts).trans (List.map_id _))
  rw [ofString_display, hhealed, parts_bytes hentries]

/-! ### The extension -/

/-- A text with the extension behind it, if its last part has no dot. -/
def extended (extension text : String) : String :=
  if (lastPart text.toList).contains '.' then text else text ++ "." ++ extension

/-- Parts with the extension behind the last one, if that has no dot. -/
def extendedParts (extension : String) : List String → List String
  | [] => []
  | [part] => [if part.toList.contains '.' then part else part ++ "." ++ extension]
  | part :: next :: parts => part :: extendedParts extension (next :: parts)

theorem extendedParts_ne_nil (hne : parts ≠ []) : extendedParts extension parts ≠ [] := by
  unfold extendedParts
  split
  · exact absurd rfl hne
  · exact List.cons_ne_nil _ _
  · exact List.cons_ne_nil _ _

theorem extendedParts_append (hne : parts ≠ []) (front : List String) :
    extendedParts extension (front ++ parts) = front ++ extendedParts extension parts := by
  induction front with
  | nil => rfl
  | cons part front ih =>
    obtain ⟨next, rest, hrest⟩ := List.exists_cons_of_ne_nil (List.append_ne_nil_of_right_ne_nil front hne)
    rw [hrest] at ih
    rw [List.cons_append, hrest, extendedParts, ih, List.cons_append]

theorem isVisible_of_mem_extendedParts (hextension : '/' ∉ extension.toList) (h : ∀ part ∈ parts, IsVisible part) :
    ∀ part ∈ extendedParts extension parts, IsVisible part := by
  induction parts using extendedParts.induct with
  | case1 => exact h
  | case2 part =>
    have hsuffix : '/' ∉ ("." ++ extension).toList := by
      rw [String.toList_append]
      simpa using hextension
    have hpart := h part List.mem_cons_self
    refine List.forall_mem_singleton.2 ?_
    split
    · exact hpart
    · rw [String.append_assoc]
      exact hpart.append hsuffix
  | case3 part next parts ih =>
    obtain ⟨hpart, hrest⟩ := List.forall_mem_cons.1 h
    exact List.forall_mem_cons.2 ⟨hpart, ih hrest⟩

theorem lastPart_append {ds : List Char} (h : '/' ∉ ds) (cs : List Char) :
    lastPart (cs ++ ds) = lastPart cs ++ ds := by
  have hback : ∀ d ∈ ds.reverse, (d != '/') = true := fun d hd =>
    bne_iff_ne.2 fun he => h (he ▸ List.mem_reverse.1 hd)
  rw [lastPart, List.reverse_append, List.takeWhile_append_of_pos hback, List.reverse_append, List.reverse_reverse]
  rfl

theorem lastPart_slash (cs : List Char) : lastPart (cs ++ ['/']) = [] := by
  rw [lastPart, List.reverse_append]
  rfl

/-- Behind a slash, or on its own, a text of parts is given the extension as its parts are. -/
theorem extended_append_intercalate {front : String} (hfront : lastPart front.toList = []) (hne : parts ≠ [])
    (h : ∀ part ∈ parts, '/' ∉ part.toList) :
    extended extension (front ++ "/".intercalate parts) = front ++ "/".intercalate (extendedParts extension parts) := by
  induction parts using extendedParts.induct generalizing front with
  | case1 => exact absurd rfl hne
  | case2 part =>
    have hlast : lastPart (front ++ part).toList = part.toList := by
      rw [String.toList_append, lastPart_append (h part List.mem_cons_self), hfront, List.nil_append]
    rw [extendedParts, String.intercalate_singleton, String.intercalate_singleton, extended, hlast]
    split
    · rfl
    · simp only [String.append_assoc]
  | case3 part next parts ih =>
    have hbehind : lastPart (front ++ part ++ "/").toList = [] := by
      rw [String.toList_append]
      exact lastPart_slash _
    have hrest := ih hbehind (List.cons_ne_nil next parts) fun p hp => h p (List.mem_cons_of_mem part hp)
    rw [extendedParts, String.intercalate_cons_cons, String.intercalate_cons_of_ne_nil
      (extendedParts_ne_nil (List.cons_ne_nil next parts))]
    simp only [String.append_assoc] at hrest ⊢
    exact hrest

/-! ### A key behind a path -/

/-- The text of a path with a key behind it. The slash in front of the key is that of the root, and leads away
from nowhere. -/
def followedBy (path : Path) (key : String) : String :=
  if path.entries ≠ [] then path.display ++ key
  else if path.rooted then key
  else String.ofList (key.toList.drop 1)

theorem followedBy_slash_intercalate {names : List String} (htexts : ∀ name ∈ path.entries, name.IsText)
    (hne : names ≠ []) :
    path.followedBy ("/" ++ "/".intercalate names) = display ⟨path.rooted, path.entries ++ names.map ofString⟩ := by
  have hfront : path.display = (if path.rooted then "/" else "") ++ "/".intercalate (path.entries.map lossy) := by
    rw [← display_texts, map_ofString_lossy htexts]
  rw [display_append_texts htexts]
  unfold followedBy
  split
  · next hentries =>
    rw [hfront, String.intercalate_append_of_ne_nil (mt List.map_eq_nil_iff.1 hentries) hne]
    simp only [String.append_assoc]
  · next hentries =>
    rw [not_not.1 hentries]
    cases path.rooted with
    | true => rfl
    | false =>
      have hslash : ("/" ++ "/".intercalate names).toList = '/' :: ("/".intercalate names).toList :=
        String.toList_append
      rw [hslash, List.drop_one, List.tail_cons, String.ofList_toList]
      exact String.empty_append.symm

end Path

open Templating.Path

theorem Memory.key_written {parts : List String} (memory : Memory) (hne : parts ≠ [])
    (h : ∀ part ∈ parts, IsVisible part) (slashes : Nat) :
    memory.key (written slashes parts) = "/" ++ "/".intercalate (extendedParts memory.extension parts) := by
  have hslash : ∀ part ∈ parts, '/' ∉ part.toList := fun part hp => (h part hp).2.1
  have hfront : lastPart "/".toList = [] := lastPart_slash []
  have htext : ("/" ++ "/".intercalate parts).toList = '/' :: ("/".intercalate parts).toList := String.toList_append
  rw [← extended_append_intercalate hfront hne hslash, extended, key, dropWhile_written hne h, ← htext,
    String.ofList_toList]
  split
  · rfl
  · rw [← String.toList_inj]
    simp [String.toList_append]

namespace Directory

variable {directory : Directory} {parts : List String}

theorem withExtension_eq_extended (hlimits : directory.limits = {}) (text : String) :
    directory.withExtension text = extended directory.extension text := by
  unfold withExtension extended
  rw [hlimits]
  cases (lastPart text.toList).contains '.' <;> rfl

theorem pathOf_written (hne : parts ≠ []) (h : ∀ part ∈ parts, IsVisible part) (slashes : Nat) :
    directory.pathOf (written slashes parts) =
      ⟨directory.view.rooted, directory.view.entries ++ parts.map ofString⟩ := by
  have hentries : ∀ name ∈ (Path.mk false (parts.map ofString)).entries, name.IsEntry :=
    List.forall_mem_map.2 fun part hp => (h part hp).isEntry
  have htexts : ∀ name ∈ (Path.mk false (parts.map ofString)).entries, name.IsText :=
    List.forall_mem_map.2 fun part _ => congrArg ofString (lossy_ofString part)
  have hparts : (ofString ("/".intercalate parts)).parts = (parts.map ofString).map .name := by
    have hdisplay := parts_ofString_display hentries htexts
    rw [display_texts] at hdisplay
    exact (congrArg (fun text => (ofString text).parts) String.empty_append).symm.trans hdisplay
  rw [pathOf, dropWhile_written hne h, String.ofList_toList, hparts, follow_names]

theorem withExtension_written (hlimits : directory.limits = {}) (htexts : ∀ name ∈ directory.view.entries, name.IsText)
    (hne : parts ≠ []) (h : ∀ part ∈ parts, IsVisible part) (slashes : Nat) :
    directory.withExtension (directory.pathOf (written slashes parts)).display =
      display ⟨directory.view.rooted,
        directory.view.entries ++ (extendedParts directory.extension parts).map ofString⟩ := by
  have hfront : lastPart (if directory.view.rooted then "/" else "").toList = [] := by
    cases directory.view.rooted <;> rfl
  have hview : ∀ part ∈ directory.view.entries.map lossy, '/' ∉ part.toList := by
    refine List.forall_mem_map.2 fun entry he hmem => ?_
    rw [lossy, String.toList_ofList] at hmem
    exact (directory.view_entries entry he).2.2.2 (mem_of_slash_mem_decode hmem)
  have hslash : ∀ part ∈ directory.view.entries.map lossy ++ parts, '/' ∉ part.toList :=
    List.forall_mem_append.2 ⟨hview, fun part hp => (h part hp).2.1⟩
  rw [withExtension_eq_extended hlimits, pathOf_written hne h, display_append_texts htexts,
    extended_append_intercalate hfront (List.append_ne_nil_of_right_ne_nil _ hne) hslash,
    extendedParts_append hne, display_append_texts htexts]

/-- What leads on from the view through visible names only is found right. -/
theorem passed_view_append (hview : directory.hiddenNames directory.view.parts = [])
    (h : ∀ part ∈ parts, IsVisible part) (escape : Bool) :
    directory.Passed escape (directory.view.parts ++ (parts.map ofString).map .name) := by
  have hinside : directory.sandbox.parts <+: directory.view.parts := directory.sandbox_isPrefix_scope false
  have hscope : (directory.scope escape).parts <+: directory.view.parts := by
    cases escape with
    | true => exact hinside
    | false => exact List.prefix_refl _
  refine ⟨fun _ => ?_, fun _ => hscope.trans (List.prefix_append _ _)⟩
  have hwithin : isWithin (directory.view.parts ++ (parts.map ofString).map .name) directory.sandbox = true :=
    isWithin_iff.2 (hinside.trans (List.prefix_append _ _))
  have hshown : ∀ part ∈ parts, isHidden (ofString part).lossy = false := fun part hp =>
    (lossy_ofString part).symm ▸ (h part hp).isHidden_eq
  rw [hiddenNames, directory.view_inside, if_pos rfl] at hview
  rw [hiddenNames, hwithin, if_pos rfl, List.drop_append_of_le_length hinside.length_le, List.filterMap_append,
    hview, List.nil_append, List.map_map, List.filterMap_map, List.filterMap_eq_nil_iff]
  intro part hp
  simp [hshown part hp]

/-- A directory whose view is a text in which nothing is hidden finds every name that is made of visible parts,
whether the view may be left or not, at the path that leads on from the view as the key of the name leads in a
memory with the same extension. So where its files are what the memory holds, both answer the name alike. -/
theorem pathFor_eq_view_key {memory : Memory} (hlimits : directory.limits = {})
    (hextension : '/' ∉ directory.extension.toList) (hsame : memory.extension = directory.extension)
    (htexts : ∀ name ∈ directory.view.entries, name.IsText)
    (hview : directory.hiddenNames directory.view.parts = [])
    (hne : parts ≠ []) (hparts : ∀ part ∈ parts, IsVisible part) (slashes : Nat) (escape : Bool) :
    let name := written slashes parts
    let path := directory.view.followedBy (memory.key name)
    directory.pathFor name escape = .ok path ∧
    (∃ below, (ofString (memory.key name)).parts = .root :: below ∧
      (ofString path).parts = directory.view.parts ++ below) ∧
    ∀ opened : String → Except ReadFailure String,
      opened path = (Table.get? memory.files (memory.key name)).elim (.error .missing) .ok →
        directory.read opened name escape = memory.read name := by
  intro name path
  let longer := extendedParts directory.extension parts
  have hlonger : longer ≠ [] := extendedParts_ne_nil hne
  have hvisible : ∀ part ∈ longer, IsVisible part := isVisible_of_mem_extendedParts hextension hparts
  have hbelow : ∀ below ∈ longer.map ofString, below.IsEntry ∧ below.IsText :=
    List.forall_mem_map.2 fun part hp => ⟨(hvisible part hp).isEntry, congrArg ofString (lossy_ofString part)⟩
  have hkey : memory.key name = "/" ++ "/".intercalate longer := by
    rw [memory.key_written hne hparts, hsame]
  have hpath : path = display ⟨directory.view.rooted, directory.view.entries ++ longer.map ofString⟩ := by
    rw [← followedBy_slash_intercalate htexts hlonger, ← hkey]
  have htext : directory.withExtension (directory.pathOf name).display = path :=
    (withExtension_written hlimits htexts hne hparts slashes).trans hpath.symm
  have hfound : (ofString path).parts = directory.view.parts ++ (longer.map ofString).map .name := by
    rw [hpath, parts_ofString_display
      (List.forall_mem_append.2 ⟨directory.view_entries, fun n hn => (hbelow n hn).1⟩)
      (List.forall_mem_append.2 ⟨htexts, fun n hn => (hbelow n hn).2⟩), Path.parts, Path.parts, List.map_append,
      List.append_assoc]
  have hanswer : directory.pathFor name escape = .ok path :=
    pathFor_eq_ok_iff.2 ⟨htext, hfound.symm ▸ passed_view_append hview hvisible escape⟩
  refine ⟨hanswer, ⟨(longer.map ofString).map .name, ?_, hfound⟩, fun opened hopened => ?_⟩
  · have hrooted : memory.key name = display ⟨true, longer.map ofString⟩ := hkey.trans (display_texts true longer).symm
    rw [hrooted]
    exact parts_ofString_display (fun n hn => (hbelow n hn).1) (fun n hn => (hbelow n hn).2)
  · unfold read Memory.read
    rw [hanswer]
    dsimp only
    rw [hopened]
    cases Table.get? memory.files (memory.key name) <;> rfl

/-- A dot in the name of a directory is no extension of what is in it. -/
theorem pathFor_eq_view_key_dotted :
    (site.limits = {} ∧ '/' ∉ site.extension.toList ∧ (Memory.empty "tess").extension = site.extension ∧
      (∀ name ∈ site.view.entries, name.IsText) ∧ site.hiddenNames site.view.parts = [] ∧
      ∀ part ∈ ["blog.d", "page"], IsVisible part) ∧
    (Memory.empty "tess").key "//blog.d/page" = "/blog.d/page.tess" ∧
    ∀ escape, site.pathFor "//blog.d/page" escape = .ok "/srv/site/views/blog.d/page.tess" := by
  have hextension : '/' ∉ site.extension.toList := by decide
  have htexts : ∀ name ∈ site.view.entries, name.IsText := by decide +kernel
  have hview : site.hiddenNames site.view.parts = [] := by decide +kernel
  have hparts : ∀ part ∈ ["blog.d", "page"], IsVisible part := by decide +kernel
  have hname : written 2 ["blog.d", "page"] = "//blog.d/page" := by decide +kernel
  have hkey : (Memory.empty "tess").key "//blog.d/page" = "/blog.d/page.tess" := by decide +kernel
  refine ⟨⟨rfl, hextension, rfl, htexts, hview, hparts⟩, hkey, fun escape => ?_⟩
  have hanswer := (@pathFor_eq_view_key site _ (Memory.empty "tess") rfl hextension rfl htexts hview
    (List.cons_ne_nil _ _) hparts 2 escape).1
  rw [hname, hkey] at hanswer
  exact hanswer

/-- A view that is no text is left by the text of every path in it, though nothing in it is hidden, and the root
as a view has its slash in common with the key. -/
theorem pathFor_ne_view_append_key :
    (∃ directory, sandboxed (some "/") ⟨[0x2f, 0xff]⟩ ⟨[0x2f, 0xff]⟩ "tess" {} = .ok directory ∧
      directory.hiddenNames directory.view.parts = [] ∧
      ∀ escape, directory.pathFor "page" escape = .error (.escape "/\ufffd/page.tess")) ∧
    (∃ directory, sandboxed (some "/") "/" "/" "tess" {} = .ok directory ∧
      directory.hiddenNames directory.view.parts = [] ∧ directory.view.display = "/" ∧
      ∀ escape, directory.pathFor "page" escape = .ok "/page.tess") ∧
    (Memory.empty "tess").key "page" = "/page.tess" :=
  ⟨⟨⟨⟨true, [⟨[0xff]⟩]⟩, ⟨true, [⟨[0xff]⟩]⟩, "tess", {}, by decide, by decide⟩, rfl, by decide +kernel,
      fun escape => by cases escape <;> rfl⟩,
    ⟨⟨⟨true, []⟩, ⟨true, []⟩, "tess", {}, by decide, by decide⟩, rfl, by decide +kernel, by decide +kernel,
      fun escape => by cases escape <;> rfl⟩,
    by decide +kernel⟩

end Directory

end Templating
