import Taskdown.Proofs.Source.Origins

/-!
# Escaped text

Whatever a text says, it can be written so that nothing in it is taken for an escape or a reference,
by putting a backslash before every punctuation character (`Text.escaped`). A backslash in the text
gets one too, so that every backslash in the escaped text either protects the character behind it or
is protected itself, and every `&` is protected.

* `unescape_escaped`: unescaping takes an escaped text apart at the characters that have been
  escaped, and nowhere else;
* `View.Made.unescape_escaped_text`: so a view of an escaped text is unescaped to the text, and
  every byte of the text leads to where its character was escaped.
-/

namespace Taskdown

/-- A text with a backslash before every punctuation character. -/
def Text.escaped (cs : Text) : Text :=
  cs.flatMap fun c => if isPunctuation c then ['\\', c] else [c]

/-- The piece of an escaped text that stands for a character. -/
def Piece.ofEscaped (c : Char) : Piece :=
  if Text.isPunctuation c then .change ['\\', c] [c] else .keep c

theorem Text.escaped_cons (c : Char) (cs : Text) :
    escaped (c :: cs) = (if isPunctuation c then ['\\', c] else [c]) ++ escaped cs :=
    List.flatMap_cons

theorem Text.escaped_append (as bs : Text) : escaped (as ++ bs) = escaped as ++ escaped bs :=
  List.flatMap_append

theorem Piece.input_ofEscaped (c : Char) :
    (ofEscaped c).input = if Text.isPunctuation c then ['\\', c] else [c] := by
  rw [ofEscaped]
  split <;> rfl

theorem Piece.output_ofEscaped (c : Char) : (ofEscaped c).output = [c] := by
  rw [ofEscaped]
  split <;> rfl

theorem Piece.isKept_ofEscaped (c : Char) : (ofEscaped c).isKept = !Text.isPunctuation c := by
  rw [ofEscaped]
  cases Text.isPunctuation c <;> rfl

/-- A character that is not punctuation begins neither an escape nor a reference. -/
theorem unescape_cons_of_not_isPunctuation (decode : Text.Reference → Option Text) {c : Char}
    (h : ¬ Text.isPunctuation c) (cs : Text) :
    unescape decode (c :: cs) = .keep c :: unescape decode cs := by
  have hbackslash : c ≠ '\\' := by
    rintro rfl
    exact h (by decide)
  have hampersand : c ≠ '&' := by
    rintro rfl
    exact h (by decide)
  rw [unescape]
  · exact fun _ _ he _ => hbackslash he
  · exact hampersand

/-- Unescaping an escaped text gives each character back, however references are decoded. -/
theorem unescape_escaped (decode : Text.Reference → Option Text) (cs : Text) :
    unescape decode (Text.escaped cs) = cs.map Piece.ofEscaped := by
  induction cs with
  | nil => rw [Text.escaped, List.flatMap_nil, unescape, List.map_nil]
  | cons c cs ih =>
    rw [Text.escaped_cons, List.map_cons, Piece.ofEscaped]
    by_cases hc : Text.isPunctuation c
    · -- The backslash is followed by the character that it protects, whichever this is.
      rw [if_pos hc, if_pos hc, List.cons_append, List.singleton_append, unescape, if_pos hc, ih]
    · rw [if_neg hc, if_neg hc, List.singleton_append, unescape_cons_of_not_isPunctuation decode hc,
        ih]

namespace Rewriting

theorem input_map_ofEscaped (cs : Text) :
    Rewriting.input (cs.map Piece.ofEscaped) = Text.escaped cs := by
  rw [input, List.flatMap_map, Text.escaped]
  exact congrArg (List.flatMap · cs) (funext Piece.input_ofEscaped)

theorem output_map_ofEscaped (cs : Text) : Rewriting.output (cs.map Piece.ofEscaped) = cs := by
  rw [output, List.flatMap_map, funext Piece.output_ofEscaped]
  exact List.flatMap_singleton' cs

theorem isIdentity_map_ofEscaped (cs : Text) :
    Rewriting.isIdentity (cs.map Piece.ofEscaped) = !cs.any Text.isPunctuation := by
  rw [isIdentity, List.all_map, List.not_any_eq_all_not]
  exact congrArg cs.all (funext Piece.isKept_ofEscaped)

end Rewriting

/-- The character at the place where a text goes on. -/
theorem Text.charAt?_width_append (as bs : Text) : charAt? (as ++ bs) (width as) = bs.head? := by
  rw [charAt?, if_pos (isBoundary_append_left as bs), dropBytes_width_append]

/-- A view of an escaped text is unescaped to the text, whether references are decoded or not, and
    the text is that of the view if nothing in it had to be escaped, and only then. Every byte of
    the text leads to its place in the source: that of the backslash, if its character has been
    escaped, and otherwise the byte of the character itself. -/
theorem View.Made.unescape_escaped_text {v : View} {cs : Text} (hv : v.Made)
    (htext : v.text = Text.escaped cs) :
    (∀ r ∈ [v.unescaping, v.unescapingOnlyBackslashes],
      r.result = ⟨cs, !cs.any Text.isPunctuation⟩) ∧
    ∀ before c behind, cs = before ++ c :: behind →
      Text.charAt? v.source.text (v.start + Text.width (Text.escaped before)) =
        some (if Text.isPunctuation c then '\\' else c) ∧
      ∀ k < c.utf8Size, (v.record v.unescaping {}).offsetOf (Text.width before + k) =
        v.start + Text.width (Text.escaped before) + if Text.isPunctuation c then 0 else k := by
  have hpieces : ∀ decode, unescape decode v.text = cs.map Piece.ofEscaped := fun decode => by
    rw [htext, unescape_escaped]
  refine ⟨fun r hr => ?_, ?_⟩
  · have hr : r = cs.map Piece.ofEscaped := by
      rcases List.mem_cons.1 hr with rfl | hr
      · exact hpieces _
      · rw [List.mem_singleton.1 hr]
        exact hpieces _
    rw [hr, Rewriting.result, Rewriting.output_map_ofEscaped, Rewriting.isIdentity_map_ofEscaped]
  · rintro before c behind rfl
    constructor
    · have hshows := hv.wellFormed.sound.shows
      rw [hshows.source, hshows.start, htext, Text.escaped_append, List.append_assoc,
        ← List.append_assoc, ← Text.width_append, Text.charAt?_width_append, Text.escaped_cons]
      split <;> rfl
    · intro k hk
      have hplace := Provenance.sound_empty.offsetOf_record v.start (before.map .ofEscaped)
        (behind.map .ofEscaped) (.ofEscaped c) (k := k) (by rw [Piece.output_ofEscaped]; exact hk)
      rw [Rewriting.output_map_ofEscaped, Rewriting.input_map_ofEscaped, Piece.isKept_ofEscaped]
        at hplace
      have hall : v.unescaping = before.map .ofEscaped ++ .ofEscaped c ::
          behind.map .ofEscaped := by
        rw [View.unescaping, hpieces, List.map_append, List.map_cons]
      rw [View.record, hall, ← Nat.zero_add (Text.width before)]
      refine hplace.trans (congrArg (v.start + Text.width (Text.escaped before) + ·) ?_)
      cases Text.isPunctuation c <;> rfl

/-- In `xa\\*é`, cut before `a`, there is an escaped star. -/
theorem View.Made.unescape_escaped_text_star :
    ∃ v : View, v.Made ∧ v.text = Text.escaped ['a', '*', 'é'] ∧
    (∀ r ∈ [v.unescaping, v.unescapingOnlyBackslashes], r.result = ⟨['a', '*', 'é'], false⟩) ∧
    (v.record v.unescaping {}).offsetOf 1 = 2 ∧ (v.record v.unescaping {}).offsetOf 3 = 5 := by
  let source : Source := ⟨0, ['x', 'a', '\\', '*', 'é']⟩
  have hcut : View.ofFrom source 1 = .ok ⟨source, ⟨1, 6⟩, none⟩ := rfl
  have htext : (⟨source, ⟨1, 6⟩, none⟩ : View).text = Text.escaped ['a', '*', 'é'] := by decide
  obtain ⟨hresult, hplaces⟩ := unescape_escaped_text (.ofFrom hcut) htext
  refine ⟨_, .ofFrom hcut, htext, hresult, ?_, ?_⟩
  · exact (hplaces ['a'] '*' ['é'] rfl).2 0 (by decide)
  · exact (hplaces ['a', '*'] 'é' [] rfl).2 1 (by decide)

end Taskdown
