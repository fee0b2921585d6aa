import Mathlib.Control.Monad.Basic
import Templating.Grammar.Template
import Templating.Problem.Report
import Templating.Proofs.Equality

/-!
# Headings of reports

The place of a problem is counted in bytes, and a report takes it as a number of characters. So the line in
the heading of a report is that of a place which may be too far behind. It is never in front of the right
one, and it is the right one where no character in front of the problem takes more than one byte.
-/

namespace Templating

namespace Text

variable {measure : List Char → Nat} {cs front : List Char} {place number : Nat}

/-! ### Lines and places -/

/-- A place of a text is in a line, the first one having the number one. The place is given by the measure
of what is in front of it, and behind the last character it is in the last line. -/
def InLine (measure : List Char → Nat) (cs : List Char) (place number : Nat) : Prop :=
  ∃ before line after, splitLines cs = before ++ line :: after ∧ number = before.length + 1 ∧
    measure before.flatten ≤ place ∧
    (place < measure (before ++ [line]).flatten ∨ after = [] ∧ place = measure cs)

/-- A place that is counted in smaller measures is in no earlier line. -/
theorem InLine.le {smaller : List Char → Nat} {right shown : Nat} (hright : InLine measure cs place right)
    (hshown : InLine smaller cs place shown) (hmono : ∀ as bs, measure as ≤ measure (as ++ bs))
    (hsmaller : ∀ as, smaller as ≤ measure as) : right ≤ shown := by
  obtain ⟨before, line, after, hlines, rfl, hbefore, -⟩ := hright
  obtain ⟨first, next, behind, hfirst, rfl, -, hplace⟩ := hshown
  refine Nat.le_of_not_lt fun hlt => ?_
  have hsplit : first ++ [next] ++ behind = before ++ line :: after := by
    rw [← hlines, hfirst, List.append_assoc]
    rfl
  have hlength : (first ++ [next]).length ≤ before.length := by
    rw [List.length_append, List.length_singleton]
    omega
  obtain ⟨more, rfl⟩ := List.prefix_of_prefix_length_le ⟨behind, hsplit⟩ (List.prefix_append _ _) hlength
  rcases hplace with hplace | ⟨rfl, -⟩
  · have hwhole := hmono (first ++ [next]).flatten more.flatten
    have hnext := hsmaller (first ++ [next]).flatten
    rw [List.flatten_append] at hbefore
    omega
  · have hall := congrArg List.length hsplit
    simp only [List.length_append, List.length_cons, List.length_nil] at hall
    omega

/-- Some line is the last one that begins at or in front of a place, or the last one at all. -/
theorem exists_line {lines : List (List Char)} (hlines : lines ≠ []) (h : measure front ≤ place) :
    ∃ before line after, lines = before ++ line :: after ∧ measure (front ++ before.flatten) ≤ place ∧
      (place < measure (front ++ (before ++ [line]).flatten) ∨ after = []) := by
  induction lines generalizing front with
  | nil => exact absurd rfl hlines
  | cons line lines ih =>
    by_cases hplace : place < measure (front ++ line)
    · exact ⟨[], line, lines, rfl, by simpa using h, by simpa using Or.inl hplace⟩
    · by_cases hlast : lines = []
      · exact ⟨[], line, [], by rw [hlast, List.nil_append], by simpa using h, .inr rfl⟩
      · obtain ⟨before, next, after, rfl, hbefore, hnext⟩ := ih hlast (Nat.le_of_not_lt hplace)
        exact ⟨line :: before, next, after, rfl, by simpa using hbefore, by simpa using hnext⟩

theorem exists_inLine (hcs : cs ≠ []) (hnil : measure [] = 0) (h : place ≤ measure cs) :
    ∃ number, InLine measure cs place number := by
  have hlines : splitLines cs ≠ [] := fun hempty => hcs (by rw [← flatten_splitLines cs, hempty]; rfl)
  have hfront : measure [] ≤ place := by omega
  obtain ⟨before, line, after, hsplit, hbefore, hplace⟩ := exists_line hlines hfront
  refine ⟨before.length + 1, before, line, after, hsplit, rfl, hbefore, ?_⟩
  by_cases hnext : place < measure (before ++ [line]).flatten
  · exact .inl hnext
  · have hlast : after = [] := hplace.resolve_left hnext
    have hwhole : (before ++ [line]).flatten = cs := by rw [← flatten_splitLines cs, hsplit, hlast]
    rw [hwhole] at hnext
    exact .inr ⟨hlast, by omega⟩

theorem length_le_width (cs : List Char) : cs.length ≤ width cs := by
  induction cs with
  | nil => exact Nat.le_refl 0
  | cons c cs ih =>
    have := c.utf8Size_pos
    simp only [width, List.length_cons]
    omega

theorem width_eq_length (h : ∀ c ∈ cs, c.utf8Size = 1) : width cs = cs.length := by
  induction cs with
  | nil => rfl
  | cons c cs ih =>
    obtain ⟨hc, hcs⟩ := List.forall_mem_cons.1 h
    rw [width, hc, ih hcs, List.length_cons, Nat.add_comm]

theorem width_le_append (as bs : List Char) : width as ≤ width (as ++ bs) := by
  rw [width_append]
  exact Nat.le_add_right _ _

/-- Of two places in a text the same one is in front, whether bytes or characters are counted. -/
theorem width_le_width_iff {as bs : List Char} (has : as <+: cs) (hbs : bs <+: cs) :
    width as ≤ width bs ↔ as.length ≤ bs.length := by
  constructor
  · intro hwidth
    refine Nat.le_of_not_lt fun hlt => ?_
    obtain ⟨more, rfl⟩ := List.prefix_of_prefix_length_le hbs has (by omega)
    have hmore : more ≠ [] := by
      rintro rfl
      simp at hlt
    have := width_pos hmore
    rw [width_append] at hwidth
    omega
  · intro hlength
    obtain ⟨more, rfl⟩ := List.prefix_of_prefix_length_le has hbs hlength
    exact width_le_append as more

theorem inLine_width_iff (hfront : front <+: cs) :
    InLine width cs (width front) number ↔ InLine List.length cs front.length number := by
  unfold InLine
  refine exists_congr fun before => exists_congr fun line => exists_congr fun after =>
    and_congr_right fun hlines => and_congr_right fun _ => ?_
  have hwhole : before.flatten ++ (line ++ after.flatten) = cs := by
    rw [← flatten_splitLines cs, hlines, List.flatten_append, List.flatten_cons]
  have hbefore : before.flatten <+: cs := ⟨_, hwhole⟩
  have hline : (before ++ [line]).flatten <+: cs := ⟨after.flatten, by simpa using hwhole⟩
  have hend : width front = width cs ↔ front.length = cs.length := by
    have hle := width_le_width_iff hfront (List.prefix_refl cs)
    have hge := width_le_width_iff (List.prefix_refl cs) hfront
    omega
  have hnext := width_le_width_iff hline hfront
  rw [width_le_width_iff hbefore hfront, hend, ← Nat.not_le, ← Nat.not_le, hnext]

/-! ### Lines found -/

theorem placeLines_append (index offset : Nat) (lines more : List (List Char)) :
    placeLines index offset (lines ++ more) = placeLines index offset lines ++
      placeLines (index + lines.length) (offset + lines.flatten.length) more := by
  induction lines generalizing index offset with
  | nil => rfl
  | cons line lines ih =>
    simp only [List.cons_append, placeLines, ih, List.length_cons, List.flatten_cons, List.length_append]
    rw [Nat.add_right_comm, Nat.add_assoc index, Nat.add_assoc offset]

theorem le_offset_of_mem {index offset : Nat} {lines : List (List Char)} {line : Line}
    (h : line ∈ placeLines index offset lines) : offset ≤ line.offset := by
  induction lines generalizing index offset with
  | nil => cases h
  | cons chars lines ih =>
    rcases List.mem_cons.1 h with rfl | h
    · exact Nat.le_refl _
    · have := ih h
      omega

theorem filter_placeLines_of_lt {index offset : Nat} {lines : List (List Char)}
    (h : place < offset ∨ lines = []) : (placeLines index offset lines).filter (·.offset ≤ place) = [] := by
  rcases h with hlt | rfl
  · refine List.filter_eq_nil_iff.2 fun line hline => ?_
    have hoffset := le_offset_of_mem hline
    exact mt of_decide_eq_true (by omega)
  · rfl

/-- Of some lines the last one that begins at a place or in front of it is the one that goes beyond it. -/
theorem getLast?_filter_placeLines {before after : List (List Char)} {chars : List Char}
    (hbefore : before.flatten.length ≤ place)
    (hplace : place < before.flatten.length + chars.length ∨ after = []) :
    ((placeLines 0 0 (before ++ chars :: after)).filter (·.offset ≤ place)).getLast? =
      some ⟨before.length, before.flatten.length, chars⟩ := by
  rw [placeLines_append, List.filter_append, placeLines, Nat.zero_add, Nat.zero_add,
    List.filter_cons_of_pos (by exact decide_eq_true hbefore), filter_placeLines_of_lt hplace,
    List.getLast?_concat]

theorem InLine.lineAt? (h : InLine List.length cs place number) :
    ∃ line, lineAt? cs place = some line ∧ number = line.index + 1 := by
  obtain ⟨before, chars, after, hlines, rfl, hbefore, hplace⟩ := h
  have hwhole : before.flatten.length + (chars.length + after.flatten.length) = cs.length := by
    rw [← flatten_splitLines cs, hlines, List.flatten_append, List.flatten_cons, List.length_append,
      List.length_append]
  have hnext : (before ++ [chars]).flatten.length = before.flatten.length + chars.length := by simp
  have hle : place ≤ cs.length := by omega
  have hbehind : place < before.flatten.length + chars.length ∨ after = [] :=
    hplace.imp (fun hlt => hnext ▸ hlt) And.left
  refine ⟨⟨before.length, before.flatten.length, chars⟩, ?_, rfl⟩
  rw [Text.lineAt?, if_pos hle, linesOf, hlines]
  exact getLast?_filter_placeLines hbefore hbehind

theorem bounds_of_lineAt? {line : Line} (h : lineAt? cs place = some line) : cs ≠ [] ∧ place ≤ cs.length := by
  unfold lineAt? at h
  split at h
  case isTrue hle =>
    refine ⟨?_, hle⟩
    rintro rfl
    cases h
  case isFalse => cases h

theorem exists_lineAt? (hcs : cs ≠ []) (h : place ≤ cs.length) : ∃ line, lineAt? cs place = some line := by
  obtain ⟨number, hnumber⟩ := exists_inLine hcs rfl h
  obtain ⟨line, hline, -⟩ := hnumber.lineAt?
  exact ⟨line, hline⟩

theorem inLine_of_lineAt? {line : Line} (h : lineAt? cs place = some line) :
    InLine List.length cs place (line.index + 1) := by
  obtain ⟨hcs, hle⟩ := bounds_of_lineAt? h
  obtain ⟨number, hnumber⟩ := exists_inLine hcs rfl hle
  obtain ⟨found, hfound, rfl⟩ := hnumber.lineAt?
  rw [h, Option.some_inj] at hfound
  rwa [hfound]

end Text

namespace Report

variable {report message name : String} {number column : Nat}

/-! ### Headings -/

/-- A report tells the name of the text and a line and a column of it above everything that it draws. -/
def Headed (report message name : String) (number column : Nat) : Prop :=
  ∃ margin rest, report = "Error: " ++ message ++ "\n" ++ spaces margin ++ "╭─[" ++ name ++ ":" ++
    toString number ++ ":" ++ toString column ++ "]\n" ++ rest

theorem append_cons_inj {c : Char} {as bs xs ys : List Char} (has : c ∉ as) (hbs : c ∉ bs)
    (h : as ++ c :: xs = bs ++ c :: ys) : as = bs ∧ xs = ys := by
  induction as generalizing bs with
  | nil =>
    cases bs with
    | nil => exact ⟨rfl, (List.cons.inj h).2⟩
    | cons b bs => exact absurd ((List.cons.inj h).1 ▸ List.mem_cons_self) hbs
  | cons a as ih =>
    cases bs with
    | nil => exact absurd ((List.cons.inj h).1 ▸ List.mem_cons_self) has
    | cons b bs =>
      obtain ⟨rfl, htail⟩ := List.cons.inj h
      obtain ⟨rfl, hrest⟩ := ih (List.not_mem_of_not_mem_cons has) (List.not_mem_of_not_mem_cons hbs) htail
      exact ⟨rfl, hrest⟩

theorem colon_notMem (n : Nat) : ':' ∉ (toString n).toList := by
  intro h
  rw [Nat.toString_eq_repr, Nat.toList_repr] at h
  have hdigit := Nat.isDigit_of_mem_toDigits (by decide) (by decide) h
  exact absurd hdigit (by decide)

theorem toString_toList_inj {m n : Nat} (h : (toString m).toList = (toString n).toList) : m = n := by
  have hdigits : Nat.toDigits 10 m = Nat.toDigits 10 n :=
    Nat.toList_repr.symm.trans (h.trans Nat.toList_repr)
  have hvalue := congrArg (Nat.ofDigitChars 10 · 0) hdigits
  simpa only [Nat.ofDigitChars_toDigits (b := 10) (by decide) (by decide)] using hvalue

theorem Headed.number_unique {number' column' : Nat} (h : Headed report message name number column)
    (h' : Headed report message name number' column') : number = number' := by
  obtain ⟨margin, rest, rfl⟩ := h
  obtain ⟨margin', rest', h'⟩ := h'
  have hcorner : "╭─[".toList = ['╭', '─', '['] := by decide
  have hcolon : ":".toList = [':'] := by decide
  have hblank : ∀ n, '╭' ∉ List.replicate n ' ' := fun n hn =>
    absurd (List.eq_of_mem_replicate hn) (by decide)
  have hchars := congrArg String.toList h'
  simp only [String.toList_append, spaces, String.toList_ofList, List.append_assoc, hcorner, hcolon,
    List.append_cancel_left_eq, List.cons_append, List.nil_append] at hchars
  -- No corner stands in the margin and no colon in a number, so the two headings are cut at the same places.
  have hname := (append_cons_inj (hblank margin) (hblank margin') hchars).2
  simp only [List.cons.injEq, true_and, List.append_cancel_left_eq] at hname
  have hdigits := (append_cons_inj (colon_notMem number) (colon_notMem number') hname).1
  exact toString_toList_inj hdigits

/-- A box is headed by the line that it begins in. -/
theorem headed_box {name : String} {line final : Text.Line} {span : Text.Span} {detail : String} :
    Headed (String.join ((("Error: " ++ message) :: box name line final span detail).map (· ++ "\n")))
      message name (line.index + 1) (span.start - line.offset + 1) := by
  unfold box
  simp only [List.map_cons, List.cons_append, List.nil_append, String.join_cons]
  exact ⟨_, _, by simp only [String.append_assoc]; rfl⟩

theorem not_headed_alone : ¬ Headed ("Error: " ++ message ++ "\n") message name number column := by
  rintro ⟨margin, rest, h⟩
  have hlength := congrArg String.length h
  simp only [String.length_append] at hlength
  have hcorner : "╭─[".length = 3 := by decide
  omega

end Report

namespace Problem

open Text Report

variable {name source : String} {p : Problem} {number column : Nat}

theorem headed_report {line final : Line} (hline : lineAt? source.toList p.span.start = some line)
    (hfinal : lineAt? source.toList (max p.span.start (p.span.stop - 1)) = some final) :
    Headed (p.report name source) p.message name (line.index + 1) (p.span.start - line.offset + 1) := by
  unfold report
  simp only [hline, hfinal]
  exact headed_box

theorem exists_lines_of_headed (h : Headed (p.report name source) p.message name number column) :
    ∃ line final, lineAt? source.toList p.span.start = some line ∧
      lineAt? source.toList (max p.span.start (p.span.stop - 1)) = some final := by
  have halone : p.report name source ≠ "Error: " ++ p.message ++ "\n" := by
    intro hreport
    rw [hreport] at h
    exact not_headed_alone h
  unfold report at halone
  dsimp only at halone
  split at halone
  case h_1 line final hline hfinal => exact ⟨line, final, hline, hfinal⟩
  case h_2 => exact absurd (by simp [String.join_cons]) halone

theorem exists_headed_iff : (∃ column, Headed (p.report name source) p.message name number column) ↔
    InLine List.length source.toList p.span.start number ∧ p.span.stop ≤ source.toList.length + 1 := by
  constructor
  · rintro ⟨column, h⟩
    obtain ⟨line, final, hline, hfinal⟩ := exists_lines_of_headed h
    have hnumber := h.number_unique (headed_report hline hfinal)
    have hstop := (bounds_of_lineAt? hfinal).2
    exact ⟨hnumber ▸ inLine_of_lineAt? hline, by omega⟩
  · rintro ⟨hstart, hstop⟩
    obtain ⟨line, hline, rfl⟩ := hstart.lineAt?
    obtain ⟨hcs, hle⟩ := bounds_of_lineAt? hline
    obtain ⟨final, hfinal⟩ := exists_lineAt? hcs (show max p.span.start (p.span.stop - 1) ≤ _ by omega)
    exact ⟨_, headed_report hline hfinal⟩

/-- The line in the heading of a report is that of the place with as many characters in front of it as there
are bytes in front of the problem, and nothing is drawn if the text has not so many. So it is never in front
of the right line, and it is the right one if no character in front of the problem takes more than a byte. -/
theorem report_line {front : List Char} {right : Nat} (name : String) (hfront : front <+: source.toList)
    (hstart : width front = p.span.start) (hright : InLine width source.toList p.span.start right) :
    (∀ number, (∃ column, Headed (p.report name source) p.message name number column) ↔
      InLine List.length source.toList p.span.start number ∧ p.span.stop ≤ source.toList.length + 1) ∧
    (∀ number column, Headed (p.report name source) p.message name number column → right ≤ number) ∧
    ((∀ c ∈ front, c.utf8Size = 1) → p.span.stop ≤ source.toList.length + 1 →
      ∃ column, Headed (p.report name source) p.message name right column) := by
  refine ⟨fun number => exists_headed_iff, fun number column h => ?_, fun hbytes hstop => ?_⟩
  · exact hright.le (exists_headed_iff.1 ⟨column, h⟩).1 width_le_append length_le_width
  · have hlength : front.length = p.span.start := by rw [← width_eq_length hbytes, hstart]
    rw [← hstart, inLine_width_iff hfront, hlength] at hright
    exact exists_headed_iff.2 ⟨hright, hstop⟩

/-- A character that no token begins with, at a place between parentheses. -/
def ampersand (start : Nat) : Problem :=
  ⟨.lexical, ⟨start, start + 1⟩, "unexpected '&' in tag parameters", []⟩

/-- Letters behind a problem do not move it. -/
theorem report_line_plain :
    parse "a\n#(&)\né" = .error (ampersand 4) ∧
    ("a\n#(".toList <+: "a\n#(&)\né".toList ∧ width "a\n#(".toList = 4 ∧
      InLine width "a\n#(&)\né".toList 4 2 ∧ ∀ c ∈ "a\n#(".toList, c.utf8Size = 1) ∧
    ∃ column, Headed ((ampersand 4).report "page" "a\n#(&)\né") (ampersand 4).message "page" 2 column := by
  have hfront : "a\n#(".toList <+: "a\n#(&)\né".toList := by decide +kernel
  have hwidth : width "a\n#(".toList = 4 := by decide +kernel
  have hright : InLine width "a\n#(&)\né".toList 4 2 :=
    ⟨["a\n".toList], "#(&)\n".toList, ["é".toList], by decide +kernel, rfl, by decide +kernel,
      .inl (by decide +kernel)⟩
  have hbytes : ∀ c ∈ "a\n#(".toList, c.utf8Size = 1 := fun c hc =>
    eq_of_beq (List.all_eq_true.1 (show "a\n#(".toList.all (·.utf8Size == 1) by decide +kernel) c hc)
  exact ⟨by decide +kernel, ⟨hfront, hwidth, hright, hbytes⟩,
    (@report_line _ (ampersand 4) _ _ "page" hfront hwidth hright).2.2 hbytes (by decide +kernel)⟩

/-- Three letters of two bytes in front of a problem move the heading to the line below. -/
theorem heading_below_problem :
    parse "ééé\n#(&)\nxx" = .error (ampersand 9) ∧
    "ééé\n#(".toList <+: "ééé\n#(&)\nxx".toList ∧ width "ééé\n#(".toList = 9 ∧
    InLine width "ééé\n#(&)\nxx".toList 9 2 ∧
    Headed ((ampersand 9).report "page" "ééé\n#(&)\nxx") (ampersand 9).message "page" 3 1 ∧
    ∀ column, ¬ Headed ((ampersand 9).report "page" "ééé\n#(&)\nxx") (ampersand 9).message "page" 2
      column := by
  have hheaded : Headed ((ampersand 9).report "page" "ééé\n#(&)\nxx") (ampersand 9).message "page" 3 1 :=
    @headed_report _ _ (ampersand 9) ⟨2, 9, "xx".toList⟩ ⟨2, 9, "xx".toList⟩ (by decide +kernel)
      (by decide +kernel)
  refine ⟨by decide +kernel, by decide +kernel, by decide +kernel, ?_, hheaded, ?_⟩
  · exact ⟨["ééé\n".toList], "#(&)\n".toList, ["xx".toList], by decide +kernel, rfl, by decide +kernel,
      .inl (by decide +kernel)⟩
  · intro column h
    exact absurd (h.number_unique hheaded) (by decide)

end Problem

end Templating
