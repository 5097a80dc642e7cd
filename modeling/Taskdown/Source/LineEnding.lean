import Taskdown.Source.Rewrite

/-!
# Uniform line terminators

Every line terminator becomes `\n`. Text can also be given the terminator that its last line lacks.

* `input_normalizeLineEnds`: normalizing takes the whole text apart.
-/

namespace Taskdown

/-- Takes a text apart at its carriage returns. -/
def normalizeLineEnds : Text → Rewriting
  | [] => []
  | '\r' :: '\n' :: cs => .change ['\r', '\n'] ['\n'] :: normalizeLineEnds cs
  | c :: cs =>
    (if c = '\r' then .change ['\r'] ['\n'] else .keep c) :: normalizeLineEnds cs

/-- The insertion of a `\n` behind a text that does not end with a terminator; none behind the empty
    text. -/
def missingLineEnd (cs : Text) : Rewriting :=
  match cs.getLast? with
  | some c => if Text.isLineEnd c then [] else [.change [] ['\n']]
  | none => []

theorem input_normalizeLineEnds (cs : Text) : (normalizeLineEnds cs).input = cs := by
  fun_induction normalizeLineEnds cs with
  | case1 => rfl
  | case2 cs ih => simpa [Rewriting.input, Piece.input] using ih
  | case3 c cs _ ih =>
    simp only [Rewriting.input, List.flatMap_cons] at ih ⊢
    rw [ih]
    split <;> simp_all [Piece.input]

namespace View

/-- The text in view with uniform terminators. -/
def normalizingLineEnds (v : View) : Rewriting := normalizeLineEnds v.text

/-- The text in view with uniform terminators, its last line terminated. -/
def terminatingLines (v : View) : Rewriting := normalizeLineEnds v.text ++ missingLineEnd v.text

end View

end Taskdown
