/-!
# Spans

Places in a text are counted in bytes of its UTF-8 form.
-/

namespace Templating.Text

def width : List Char → Nat
  | [] => 0
  | c :: cs => c.utf8Size + width cs

theorem width_append (cs ds : List Char) : width (cs ++ ds) = width cs + width ds := by
  induction cs with
  | nil => simp [width]
  | cons c cs ih => simp [width, ih, Nat.add_assoc]

theorem width_pos {cs : List Char} (h : cs ≠ []) : 0 < width cs := by
  cases cs with
  | nil => exact absurd rfl h
  | cons c cs =>
    have := c.utf8Size_pos
    simp only [width]
    omega

structure Span where
  start : Nat
  stop : Nat
deriving DecidableEq, Repr

def Span.display (s : Span) : String := toString s.start ++ ".." ++ toString s.stop

end Templating.Text
