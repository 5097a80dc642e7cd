import Taskdown.Source.Rewrite
import Taskdown.Text.CharacterReference

/-!
# Backslash escapes and character references

A backslash before an ASCII punctuation character only protects that character and is dropped. A
character reference is replaced by the character that it stands for; a reference that stands for
none stays.

* `input_unescape`: unescaping takes the whole text apart.
-/

namespace Taskdown

/-- Takes a text apart at its escapes and references. `decode` gives the text that a reference
    stands for. -/
def unescape (decode : Text.Reference → Option Text) : Text → Rewriting
  | [] => []
  | '\\' :: c :: cs =>
    if Text.isPunctuation c then .change ['\\', c] [c] :: unescape decode cs
    else .keep '\\' :: unescape decode (c :: cs)
  | '&' :: cs =>
    match (Text.reference? cs).bind fun r => (decode r).map (r.length, ·) with
    | some (length, new) =>
      .change ('&' :: cs.take (length - 1)) new :: unescape decode (cs.drop (length - 1))
    | none => .keep '&' :: unescape decode cs
  | c :: cs => .keep c :: unescape decode cs
termination_by cs => cs.length
decreasing_by all_goals simp only [List.length_cons, List.length_drop]; omega

/-- Decodes every reference that stands for a character. -/
def decodeReference (r : Text.Reference) : Option Text := r.decode?.map ([·])

/-- Leaves every reference as it is. -/
def keepReference (_ : Text.Reference) : Option Text := none

theorem input_unescape (decode : Text.Reference → Option Text) (cs : Text) :
    (unescape decode cs).input = cs := by
  fun_induction unescape decode cs with
  | case1 => rfl
  | case2 c cs _ ih => simpa [Rewriting.input, Piece.input] using ih
  | case3 c cs _ ih => simpa [Rewriting.input, Piece.input] using ih
  | case4 cs length new _ ih =>
    simp only [Rewriting.input, List.flatMap_cons, Piece.input] at ih ⊢
    rw [ih, List.cons_append, List.take_append_drop]
  | case5 cs _ ih => simpa [Rewriting.input, Piece.input] using ih
  | case6 c cs _ _ ih => simpa [Rewriting.input, Piece.input] using ih

namespace View

/-- The text in view without backslash escapes and with its character references decoded. -/
def unescaping (v : View) : Rewriting := unescape decodeReference v.text

/-- The text in view without backslash escapes. -/
def unescapingOnlyBackslashes (v : View) : Rewriting := unescape keepReference v.text

/-- Records a rewriting of the text in view. -/
def record (v : View) (r : Rewriting) (p : Provenance) : Provenance := r.record v.start p

end View

end Taskdown
