import Taskdown.Text.Blank

/-!
# Lines of a text

A line ends with `\n`, with `\r\n` or with a lone `\r`, and the terminator belongs to the line. Only
the last line may lack one.

* `flatten_lines`: the lines make up the text.
-/

namespace Taskdown.Text

/-- The lines of a text, each with its terminator. -/
def lines : Text → List Text
  | [] => []
  | '\r' :: '\n' :: cs => ['\r', '\n'] :: lines cs
  | c :: cs =>
    if isLineEnd c then [c] :: lines cs
    else
      match lines cs with
      | [] => [[c]]
      | l :: ls => (c :: l) :: ls

/-- A line without its terminator. -/
def chomp : Text → Text
  | [] => []
  | ['\r', '\n'] => []
  | [c] => if isLineEnd c then [] else [c]
  | c :: cs => c :: chomp cs

/-- Does the character before `rest` end a line? A `\r` before `\n` does not: the pair ends at the
    `\n`. -/
def endsLine (c : Char) (rest : Text) : Bool :=
  c = '\n' || (c = '\r' && rest.head? ≠ some '\n')

theorem flatten_lines (cs : Text) : (lines cs).flatten = cs := by
  fun_induction lines cs with
  | case1 => rfl
  | case2 cs ih => simp [ih]
  | case3 c cs _ _ ih => simp [ih]
  | case4 c cs _ _ hl ih => rw [hl] at ih; simp at ih; simp [← ih]
  | case5 c cs _ _ l ls hl ih => rw [hl] at ih; simp at ih ⊢; exact ih

end Taskdown.Text
