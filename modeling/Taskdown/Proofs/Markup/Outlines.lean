import Taskdown.Proofs.Markup.Holding

/-!
# Outlines

An *outline* is a list of entries, each with one line of text, maybe with a task marker, and with
entries below it. It is written with a bullet for every entry, and the entries below an entry are
indented by two columns more.
-/

namespace Taskdown

open Markup

/-! ## Entries -/

/-- One line of text that is nothing but text: it starts with a letter, holds no pipe and no line
    terminator, and does not end with a blank. -/
structure Words where
  text : Text
  letter : text.head?.any Text.isLetter
  clean : ∀ c ∈ text, c ≠ '\n' ∧ c ≠ '\r' ∧ c ≠ '|'
  last : text.getLast?.all (!isLineBlank ·)

/-- What a task marker says. A completed task has an `x` of either case. -/
inductive Check where
  | todo
  | done (upper : Bool)
deriving DecidableEq, Repr

/-- The character between the brackets of a task marker. -/
def Check.char : Check → Char
  | .todo => ' '
  | .done false => 'x'
  | .done true => 'X'

/-- Is the task completed? -/
def Check.isDone : Check → Bool
  | .todo => false
  | .done _ => true

/-- A task marker. -/
def Check.text (c : Check) : Text := ['[', c.char, ']']

/-- An entry of an outline: its task marker, if it has one, its line of text, and the entries below
    it. -/
inductive Entry where
  | mk (check : Option Check) (words : Words) (below : List Entry)

namespace Entry

/-- What stands behind the bullet. -/
def content (check : Option Check) (words : Words) : Text :=
  match check with
  | none => words.text
  | some c => c.text ++ ' ' :: words.text

/-- The line of an entry at a depth. -/
def line (bullet : Char) (depth : Nat) (check : Option Check) (words : Words) : Text :=
  List.replicate (2 * depth) ' ' ++ bullet :: ' ' :: content check words

/-- What stands in front of the words of an entry at a depth. -/
def front (bullet : Char) (depth : Nat) (check : Option Check) : Text :=
  List.replicate (2 * depth) ' ' ++ bullet :: ' ' :: (match check with
    | none => []
    | some c => c.text ++ [' '])

theorem line_eq_front (bullet : Char) (depth : Nat) (check : Option Check) (words : Words) :
    line bullet depth check words = front bullet depth check ++ words.text := by
  cases check with
  | none => exact (List.append_assoc _ [bullet, ' '] _).symm
  | some c => exact (List.append_assoc _ ([bullet, ' '] ++ c.text ++ [' ']) _).symm

/-- Where the words of an entry start whose content starts at an offset. -/
def wordsStart (check : Option Check) (start : Nat) : Nat := start + if check.isSome then 4 else 0

/-- The node of the task marker of an entry whose content starts at an offset. -/
def tasks (check : Option Check) (start : Nat) : List Node :=
  check.toList.map fun c => .task ⟨start, start + 3⟩ c.isDone

mutual

/-- The text of an entry at a depth. -/
def text (bullet : Char) (depth : Nat) : Entry → Text
  | .mk check words below =>
    line bullet depth check words ++ '\n' :: textOf bullet (depth + 1) below

/-- The text of entries at a depth. -/
def textOf (bullet : Char) (depth : Nat) : List Entry → Text
  | [] => []
  | e :: entries => e.text bullet depth ++ textOf bullet depth entries

end

/-- Where the line of an entry ends that starts at an offset. -/
def lineStop (b : Char) (depth start : Nat) (check : Option Check) (words : Words) : Nat :=
  start + Text.width (line b depth check words)

/-- The nodes of the line of an entry. -/
def inlines (b : Char) (depth start : Nat) (check : Option Check) (words : Words) : List Node :=
  tasks check (start + 2 * depth + 2) ++
    [.text ⟨wordsStart check (start + 2 * depth + 2), lineStop b depth start check words⟩]

mutual

/-- The node of an entry at a depth, the line of which starts at an offset. -/
def node (b : Char) (depth start : Nat) : Entry → Node
  | .mk check words below =>
    .block .item ⟨start + 2 * depth, start + Text.width ((mk check words below).text b depth)⟩
      (inlines b depth start check words ++
        nested b (depth + 1) (lineStop b depth start check words + 1) below)

/-- The nodes of entries at a depth. -/
def nodes (b : Char) (depth start : Nat) : List Entry → List Node
  | [] => []
  | e :: entries =>
    e.node b depth start :: nodes b depth (start + Text.width (e.text b depth)) entries

/-- The list of the entries below an entry, if there are any. -/
def nested (b : Char) (depth start : Nat) : List Entry → List Node
  | [] => []
  | e :: entries =>
    [.block (.list none)
      ⟨start + 2 * depth, start + Text.width (textOf b depth (e :: entries))⟩
      (e.node b depth start :: nodes b depth (start + Text.width (e.text b depth)) entries)]

end

/-- The node of an entry in a list that may still turn out to be loose. -/
def openNode (b : Char) (depth start : Nat) : Entry → Node
  | .mk check words below =>
    let stop := lineStop b depth start check words + 1
    .block .item ⟨start + 2 * depth, start + Text.width ((mk check words below).text b depth)⟩
      (.block .paragraph ⟨wordsStart check (start + 2 * depth + 2), stop⟩
          (inlines b depth start check words) :: nested b (depth + 1) stop below)

/-- The nodes of entries in a list that may still turn out to be loose. -/
def openNodes (b : Char) (depth start : Nat) : List Entry → List Node
  | [] => []
  | e :: entries =>
    e.openNode b depth start :: openNodes b depth (start + Text.width (e.text b depth)) entries

theorem tightItem_openNode (b : Char) (depth start : Nat) (e : Entry) :
    (e.openNode b depth start).tightItem = e.node b depth start := by
  obtain ⟨check, words, below⟩ := e
  cases below <;> simp [openNode, node, nested, Node.tightItem, Node.tight]

/-- In a tight list the paragraphs give way to their text. -/
theorem map_tightItem_openNodes (b : Char) (depth start : Nat) (entries : List Entry) :
    (openNodes b depth start entries).map Node.tightItem = nodes b depth start entries := by
  induction entries generalizing start with
  | nil => rfl
  | cons e entries ih => rw [openNodes, nodes, List.map_cons, ih, tightItem_openNode]

end Entry

/-! ## How entries start -/

theorem Words.exists_cons (w : Words) : ∃ x cs, w.text = x :: cs ∧ Text.isLetter x := by
  have h := w.letter
  cases htext : w.text with
  | nil =>
    rw [htext] at h
    cases h
  | cons x cs =>
    rw [htext] at h
    exact ⟨x, cs, rfl, h⟩

/-- Words are on one line. -/
theorem Words.isLineEnd_eq (w : Words) : ∀ c ∈ w.text, Text.isLineEnd c = false := by
  intro c hc
  obtain ⟨hnewline, hreturn, -⟩ := w.clean c hc
  rw [Text.isLineEnd, decide_eq_false hnewline, decide_eq_false hreturn]
  rfl

theorem Check.isLineEnd_eq (c : Check) : ∀ x ∈ c.text, Text.isLineEnd x = false := by
  rcases c with _ | _ | _ <;> simp [Check.text, Check.char, Text.isLineEnd]

theorem isLineEnd_bullet {b : Char} (hb : Markup.isBullet b) : Text.isLineEnd b = false := by
  simp only [Markup.isBullet, Bool.or_eq_true, decide_eq_true_eq] at hb
  rcases hb with (rfl | rfl) | rfl <;> rfl

/-- The line of an entry is one line. -/
theorem Entry.isLineEnd_line {b : Char} (hb : Markup.isBullet b) (d : Nat) (check : Option Check)
    (words : Words) : ∀ c ∈ Entry.line b d check words, Text.isLineEnd c = false := by
  intro c hc
  rcases List.mem_append.1 hc with hc | hc
  · rw [List.eq_of_mem_replicate hc]
    rfl
  · rcases List.mem_cons.1 hc with rfl | hc
    · exact isLineEnd_bullet hb
    rcases List.mem_cons.1 hc with rfl | hc
    · rfl
    cases check with
    | none => exact words.isLineEnd_eq c hc
    | some check =>
      rcases List.mem_append.1 hc with hc | hc
      · exact check.isLineEnd_eq c hc
      rcases List.mem_cons.1 hc with rfl | hc
      · rfl
      · exact words.isLineEnd_eq c hc

/-- A line that ends with `\n` is the first one of a text. -/
theorem Text.lines_append_newline {cs : Text} (h : ∀ c ∈ cs, Text.isLineEnd c = false)
    (rest : Text) : Text.lines (cs ++ '\n' :: rest) = (cs ++ ['\n']) :: Text.lines rest := by
  induction cs with
  | nil =>
    rw [List.nil_append, Text.lines]
    · exact if_pos rfl
    · exact fun _ hc => by cases hc
  | cons c cs ih =>
    obtain ⟨hc, hcs⟩ := List.forall_mem_cons.1 h
    have hreturn : c ≠ '\r' := fun hc' => by rw [hc'] at hc; cases hc
    rw [List.cons_append, Text.lines, ih hcs, if_neg (Bool.eq_false_iff.1 hc)]
    · rfl
    · exact fun _ hc' => absurd hc' hreturn

namespace Markup

/-- A character with which the content of an entry may start. -/
def startsContent (x : Char) : Bool := Text.isLetter x || x = '['

theorem exists_content (check : Option Check) (words : Words) :
    ∃ x cs, Entry.content check words = x :: cs ∧ startsContent x := by
  cases check with
  | none =>
    obtain ⟨x, cs, htext, hx⟩ := words.exists_cons
    exact ⟨x, cs, htext, by rw [startsContent, hx, Bool.true_or]⟩
  | some c => exact ⟨'[', _, rfl, rfl⟩

variable {b x : Char} {cs : Text} {offset column : Nat}

theorem startsContent_spec (h : startsContent x) :
    isLineBlank x = false ∧ Text.isSpaceTab x = false ∧ isBullet x = false := by
  simp only [startsContent, Text.isLetter, Bool.or_eq_true, Bool.and_eq_true, decide_eq_true_eq]
    at h
  simp only [isLineBlank, Text.isSpaceTab, isBullet, Bool.or_eq_false_iff, decide_eq_false_iff_not]
  refine ⟨⟨⟨⟨?_, ?_⟩, ?_⟩, ?_⟩, ⟨?_, ?_⟩, ⟨?_, ?_⟩, ?_⟩ <;> rintro rfl <;> revert h <;> decide

theorem startsContent_of_isLetter (h : Text.isLetter x) :
    isLineBlank x = false ∧ Text.isSpaceTab x = false ∧ isBullet x = false :=
  startsContent_spec (by rw [startsContent, h, Bool.true_or])

theorem skip_eq_skipText (limit : Nat) : LineCursor.skip ⟨cs, offset, column, 0⟩ limit =
    LineCursor.skipText cs offset column limit := by
  cases limit with
  | zero => rw [LineCursor.skipText] <;> first | rfl | exact fun _ _ _ h => nomatch h
  | succ limit =>
    change (0 + (LineCursor.skipText cs offset column (limit + 1)).1, _) = _
    rw [Nat.zero_add]
    rfl

/-- A cursor in front of a character that is no blank skips nothing. -/
theorem skip_of_not_isSpaceTab (h : Text.isSpaceTab x = false) (limit : Nat) :
    LineCursor.skip ⟨x :: cs, offset, column, 0⟩ limit = (0, ⟨x :: cs, offset, column, 0⟩) := by
  have hspace : x ≠ ' ' := fun hx => by rw [hx] at h; cases h
  have htab : x ≠ '\t' := fun hx => by rw [hx] at h; cases h
  rw [skip_eq_skipText, LineCursor.skipText]
  · exact fun _ _ hx _ => hspace (List.cons.inj hx).1
  · exact fun _ _ hx _ => htab (List.cons.inj hx).1

theorem skip_zero : LineCursor.skip ⟨cs, offset, column, 0⟩ 0 = (0, ⟨cs, offset, column, 0⟩) := rfl

/-- A space is skipped as one column. -/
theorem skip_space (limit : Nat) : LineCursor.skip ⟨' ' :: cs, offset, column, 0⟩ (limit + 1) =
    ((LineCursor.skip ⟨cs, offset + 1, column + 1, 0⟩ limit).1 + 1,
      (LineCursor.skip ⟨cs, offset + 1, column + 1, 0⟩ limit).2) := by
  rw [skip_eq_skipText, skip_eq_skipText, LineCursor.skipText]

theorem isThematicBreak_bullet (hb : isBullet b) (hx : startsContent x) :
    isThematicBreak (b :: ' ' :: x :: cs) = false := by
  obtain ⟨-, hblank, hbullet⟩ := startsContent_spec hx
  have hne : x ≠ b := fun h => by rw [h, hb] at hbullet; cases hbullet
  rw [isThematicBreak]
  simp [hne, hblank]

theorem listMark?_bullet (hb : isBullet b) : listMark? (b :: cs) = some ⟨b, 0, 1⟩ := by
  rw [listMark?, if_pos hb]

theorem isBlankLine_cons (h : isLineBlank x = false) : isBlankLine (x :: cs) = false := by
  rw [isBlankLine, List.all_cons, h, Bool.false_and]

/-- The mark of an entry, and the cursor behind the blank that follows it. -/
theorem itemMark?_bullet (hb : isBullet b) (hx : startsContent x) :
    itemMark? ⟨b :: ' ' :: x :: cs, offset, column, 0⟩ 0 =
      some (⟨b, 0, 1⟩, ⟨x :: cs, offset + 2, column + 2, 0⟩, 2) := by
  obtain ⟨hline, hblank, -⟩ := startsContent_spec hx
  have hskip : LineCursor.skip (LineCursor.forward ⟨b :: ' ' :: x :: cs, offset, column, 0⟩ 1) 1 =
      (1, ⟨x :: cs, offset + 2, column + 2, 0⟩) := by
    change LineCursor.skip ⟨' ' :: x :: cs, offset + 1, column + 1, 0⟩ (0 + 1) = _
    rw [skip_space, skip_of_not_isSpaceTab hblank]
  rw [itemMark?, listMark?_bullet hb]
  simp only [Option.bind_eq_bind, Option.bind_some]
  rw [if_neg (by simp [isThematicBreak_bullet hb hx])]
  rw [hskip]
  dsimp only
  rw [if_neg (by simp), if_neg (by simp [isBlankLine_cons hline]), skip_of_not_isSpaceTab hblank]
  rfl

/-- Words are no task marker. -/
theorem taskMark?_letter (hx : Text.isLetter x) :
    taskMark? ⟨x :: cs, offset, column, 0⟩ = none := by
  obtain ⟨-, hblank, -⟩ := startsContent_of_isLetter hx
  rw [taskMark?, skip_of_not_isSpaceTab hblank]
  split
  · next heq =>
    obtain ⟨rfl, -⟩ := List.cons.inj heq
    cases hx
  · rfl

theorem taskMark?_check (c : Check) :
    taskMark? ⟨c.text ++ ' ' :: cs, offset, column, 0⟩ =
      some (c.isDone, ⟨' ' :: cs, offset + 3, column + 3, 0⟩) := by
  rw [taskMark?, Check.text, List.cons_append, skip_of_not_isSpaceTab rfl]
  rcases c with _ | _ | _ <;> rfl

/-! ## Lines and containers -/

/-- The containers of an entry at a depth, which is how many lists stand around it. -/
def nest (b : Char) : Nat → List Container
  | 0 => []
  | k + 1 => .list b 0 true :: .item 2 :: nest b k

theorem matchAll_cons {c d : LineCursor} {k : Container} (h : k.matches? c = some d)
    (ks : List Container) : matchAll c (k :: ks) = ((matchAll d ks).1 + 1, (matchAll d ks).2) := by
  rw [matchAll, h]

/-- The line of an entry belongs to the items of the entries that it stands below, and to the list
    of its own, if that is open. -/
theorem matchAll_nest {mark : Char} (hb : Text.isSpaceTab b = false) {d k : Nat} (hle : d ≤ k) :
    matchAll ⟨List.replicate (2 * d) ' ' ++ b :: cs, offset, column, 0⟩ (nest mark k) =
      (if d < k then 2 * d + 1 else 2 * d, ⟨b :: cs, offset + 2 * d, column + 2 * d, 0⟩) := by
  induction k generalizing d offset column with
  | zero =>
    obtain rfl : d = 0 := Nat.le_zero.1 hle
    rfl
  | succ k ih =>
    rw [nest, matchAll_cons rfl]
    cases d with
    | zero =>
      have hitem : Container.matches? ⟨b :: cs, offset, column, 0⟩ (.item 2) = none := by
        rw [Container.matches?, skip_of_not_isSpaceTab hb]
        rfl
      change ((matchAll ⟨b :: cs, offset, column, 0⟩ _).1 + 1,
        (matchAll ⟨b :: cs, offset, column, 0⟩ _).2) = _
      rw [matchAll, hitem]
      rfl
    | succ d =>
      have hitem : Container.matches?
          ⟨' ' :: ' ' :: (List.replicate (2 * d) ' ' ++ b :: cs), offset, column, 0⟩ (.item 2) =
            some ⟨List.replicate (2 * d) ' ' ++ b :: cs, offset + 2, column + 2, 0⟩ := by
        rw [Container.matches?, skip_space, skip_space, skip_zero]
        rfl
      have hplace (n : Nat) : n + 2 + 2 * d = n + 2 * (d + 1) := by omega
      have hinner : matchAll ⟨List.replicate (2 * (d + 1)) ' ' ++ b :: cs, offset, column, 0⟩
          (.item 2 :: nest mark k) = ((if d < k then 2 * d + 1 else 2 * d) + 1,
            ⟨b :: cs, offset + 2 * (d + 1), column + 2 * (d + 1), 0⟩) := by
        rw [← hplace, ← hplace]
        refine (matchAll_cons hitem _).trans ?_
        rw [ih (Nat.le_of_succ_le_succ hle)]
      rw [hinner]
      by_cases h : d < k
      · rw [if_pos h, if_pos (Nat.succ_lt_succ h)]
        rfl
      · rw [if_neg h, if_neg (mt Nat.lt_of_succ_lt_succ h)]
        rfl

/-! ## Words -/

theorem pipeCount_of_not_mem (h : '|' ∉ cs) : pipeCount cs = 0 := by
  fun_induction pipeCount cs with
  | case1 => rfl
  | case2 d cs ih => exact ih fun hmem => h (List.mem_cons_of_mem _ (List.mem_cons_of_mem _ hmem))
  | case3 c cs _ ih =>
    have hc : c ≠ '|' := fun hc => h (hc ▸ List.mem_cons_self)
    rw [ih fun hmem => h (List.mem_cons_of_mem _ hmem), if_neg hc]

/-- A letter is none of the characters that are no letters. -/
theorem ne_of_isLetter {c : Char} (hx : Text.isLetter x) (hc : Text.isLetter c = false) : x ≠ c :=
  fun h => by rw [h, hc] at hx; cases hx

theorem html?_letter (hx : Text.isLetter x) : html? (x :: cs) = none := by
  have hne : x ≠ '<' := ne_of_isLetter hx rfl
  have hinterrupting : interruptingHtml? (x :: cs) = none := by
    rw [interruptingHtml?]
    exact fun _ h => hne (List.cons.inj h).1
  rw [html?, hinterrupting]
  exact fun _ h => hne (List.cons.inj h).1

theorem isThematicBreak_letter (hx : Text.isLetter x) : isThematicBreak (x :: cs) = false := by
  rw [isThematicBreak]
  simp [ne_of_isLetter (c := '*') hx rfl, ne_of_isLetter (c := '-') hx rfl,
    ne_of_isLetter (c := '_') hx rfl]

theorem isHeading_letter (hx : Text.isLetter x) : isHeading (x :: cs) = false := by
  rw [isHeading]
  simp [ne_of_isLetter (c := '#') hx rfl]

theorem openingFence?_letter (hx : Text.isLetter x) : openingFence? (x :: cs) = none := by
  rw [openingFence?]
  simp [ne_of_isLetter (c := '\x60') hx rfl, ne_of_isLetter (c := '~') hx rfl]

theorem afterDefinition?_letter (hx : Text.isLetter x) (next : NextLine) (below : List SourceLine) :
    afterDefinition? next (x :: cs) below = none := by
  have hne : x ≠ '[' := ne_of_isLetter hx rfl
  rw [afterDefinition?]
  exact fun _ h => hne (List.cons.inj h).1

theorem listMark?_letter (hx : Text.isLetter x) : listMark? (x :: cs) = none := by
  have hbullet : isBullet x = false := by
    rw [isBullet]
    simp [ne_of_isLetter (c := '*') hx rfl, ne_of_isLetter (c := '-') hx rfl,
      ne_of_isLetter (c := '+') hx rfl]
  have hdigit : Text.isDigit x = false := by
    rw [Bool.eq_false_iff]
    intro hdigit
    simp only [Text.isLetter, Text.isDigit, Bool.or_eq_true, Bool.and_eq_true, decide_eq_true_eq,
      Char.le_def, UInt32.le_iff_toNat_le] at hx hdigit
    have h9 : '9'.val.toNat = 57 := rfl
    have ha : 'a'.val.toNat = 97 := rfl
    have hA : 'A'.val.toNat = 65 := rfl
    omega
  rw [listMark?, if_neg (Bool.eq_false_iff.1 hbullet),
    List.takeWhile_cons_of_neg (Bool.eq_false_iff.1 hdigit)]
  rfl

/-! ## Reading an entry -/

theorem nest_succ (b : Char) (k : Nat) :
    nest b (k + 1) = nest b k ++ [.list b 0 true, .item 2] := by
  induction k with
  | zero => rfl
  | succ k ih => exact congrArg (fun ks => .list b 0 true :: .item 2 :: ks) ih

/-- The containers that are open behind an entry at a depth: every entry stands in a list, and the
    entry is the innermost. -/
inductive Stack (b : Char) : Nat → List Frame → Prop
  | nil : Stack b 0 []
  | cons {k start start' : Nat} {children children' : List Node} {frames : List Frame} :
    Stack b k frames →
    Stack b (k + 1) (⟨.item 2, start, children⟩ :: ⟨.list b 0 true, start', children'⟩ :: frames)

theorem Stack.containers_eq {k : Nat} {frames : List Frame} (h : Stack b k frames) :
    frames.reverse.map Frame.container = nest b k := by
  induction h with
  | nil => rfl
  | cons _ ih =>
    rw [nest_succ, List.reverse_cons, List.reverse_cons, List.map_append, List.map_append, ih,
      List.append_assoc]
    rfl

theorem Stack.length_eq {k : Nat} {frames : List Frame} (h : Stack b k frames) :
    frames.length = 2 * k := by
  induction h with
  | nil => rfl
  | cons _ ih =>
    rw [List.length_cons, List.length_cons, ih]
    omega

namespace Reader

variable {r : Reader} {start stop k d : Nat} {frames : List Frame}

/-- The reader stands behind the line of an entry, or at the start of the text. -/
structure Behind (b : Char) (k : Nat) (r : Reader) : Prop where
  stack : Stack b k r.frames
  leaf : r.leaf = none ∨ ∃ start task content, r.leaf = some (.paragraph start task content)
  calm : r = { frames := r.frames, leaf := r.leaf }

theorem interruptsParagraph_bullet (hb : isBullet b) (hx : startsContent x)
    (r : Reader) (inside : Bool) (below : List SourceLine) :
    r.interruptsParagraph inside (b :: ' ' :: x :: cs) below := by
  have hblank : isBlankLine (' ' :: x :: cs) = false := by
    rw [isBlankLine, List.all_cons, List.all_cons, (startsContent_spec hx).1,
      Bool.false_and, Bool.and_false]
  rw [interruptsParagraph, interrupts, listMark?_bullet hb]
  simp [hb, hblank, Text.isSpaceTab]

theorem isUnderline_bullet (hb : isBullet b) (hx : startsContent x) :
    isUnderline (b :: ' ' :: x :: cs) = false := by
  have hne : ' ' ≠ b := fun h => by rw [← h] at hb; cases hb
  rw [isUnderline, List.dropWhile_cons_of_neg (by simp [hne]), isBlankLine,
    List.all_cons, List.all_cons, (startsContent_spec hx).1, Bool.false_and,
    Bool.and_false, Bool.and_false]

theorem isSpaceTab_bullet (hb : isBullet b) : Text.isSpaceTab b = false := by
  simp only [isBullet, Bool.or_eq_true, decide_eq_true_eq] at hb
  rcases hb with (rfl | rfl) | rfl <;> rfl

variable {l : SourceLine} {check : Option Check} {words : Words}

theorem Behind.matchAll_eq (h : r.Behind b k) (hb : isBullet b) (hd : d ≤ k)
    (hbody : l.body = Entry.line b d check words) : matchAll (LineCursor.atStart l) r.containers =
      (if d < k then 2 * d + 1 else 2 * d,
        ⟨b :: ' ' :: Entry.content check words, l.start + 2 * d, 2 * d, 0⟩) := by
  have hcontainers : r.containers = nest b k := h.stack.containers_eq
  rw [hcontainers, LineCursor.atStart, hbody, Entry.line, matchAll_nest (isSpaceTab_bullet hb) hd,
    Nat.zero_add]

/-- The line of an entry starts anew. -/
theorem Behind.line_eq (h : r.Behind b k) (hb : isBullet b) (hd : d ≤ k)
    (hbody : l.body = Entry.line b d check words) (below : List SourceLine) :
    r.line l below = (r.closeLeaf l.start).startLine l below := by
  have hahead : r.ahead = 0 := by rw [h.calm]
  rw [line, hahead, if_neg (Nat.lt_irrefl 0)]
  rcases h.leaf with hleaf | ⟨start, task, content, hleaf⟩
  · rw [closeLeaf, hleaf]
  · obtain ⟨x, cs, hcontent, hx⟩ := exists_content check words
    rw [hleaf]
    dsimp only
    rw [continueParagraph, h.matchAll_eq hb hd hbody, hcontent]
    dsimp only
    rw [skip_of_not_isSpaceTab (isSpaceTab_bullet hb)]
    dsimp only
    rw [isUnderline_bullet hb hx, interruptsParagraph_bullet hb hx, Bool.and_false,
      if_neg Bool.false_ne_true]
    rfl

/-! ### What an entry opens -/

theorem textStart_letter (hx : Text.isLetter x) :
    textStart ⟨x :: cs, offset, column, 0⟩ = offset := by
  have hne : x ≠ '\\' := ne_of_isLetter hx rfl
  rw [textStart]
  split
  · next heq => exact absurd (List.cons.inj heq).1 hne
  · rfl

/-- No blanks stand behind words. -/
theorem textStop_eq (hbody : l.body = Entry.line b d check words) : textStop l = l.bodyStop := by
  have hlast := words.last
  obtain ⟨x, cs, htext, -⟩ := words.exists_cons
  have hblanks : l.body.reverse.takeWhile isLineBlank = [] := by
    rw [hbody, Entry.line_eq_front, List.reverse_append]
    rw [← List.head?_reverse] at hlast
    cases hreverse : words.text.reverse with
    | nil => rw [List.reverse_eq_nil_iff.1 hreverse] at htext; cases htext
    | cons y ys =>
      rw [hreverse] at hlast
      rw [List.cons_append, List.takeWhile_cons_of_neg]
      simpa using hlast
  rw [textStop, hblanks]
  rfl

/-- Words start a paragraph. -/
theorem openParagraph_words (r : Reader) (l : SourceLine) (below : List SourceLine) (words : Words)
    (task : List Node) : r.openParagraph l below ⟨words.text, offset, column, 0⟩ task =
      { r with leaf := some (.paragraph offset task ⟨offset, textStop l⟩) } := by
  obtain ⟨x, cs, htext, hx⟩ := words.exists_cons
  have hpipes : pipeCount words.text = 0 := pipeCount_of_not_mem fun h => (words.clean _ h).2.2 rfl
  rw [openParagraph, startsTable, hpipes, htext, textStart_letter hx]
  rfl

/-- In an item, words open a paragraph and nothing else. -/
theorem openLeaf_words (l : SourceLine) (below : List SourceLine) (words : Words) :
    openLeaf { frames := ⟨.item 2, start, []⟩ :: frames } l below ⟨words.text, offset, column, 0⟩ =
      { frames := ⟨.item 2, start, []⟩ :: frames,
        leaf := some (.paragraph offset [] ⟨offset, textStop l⟩) } := by
  obtain ⟨x, cs, htext, hx⟩ := words.exists_cons
  obtain ⟨-, hblank, -⟩ := startsContent_of_isLetter hx
  have hparagraph : openParagraph _ l below ⟨words.text, offset, column, 0⟩ [] = _ :=
    openParagraph_words { frames := ⟨.item 2, start, []⟩ :: frames } l below words []
  rw [htext] at hparagraph ⊢
  rw [openLeaf, skip_of_not_isSpaceTab hblank]
  split
  · next heq => cases heq
  · next heq =>
    obtain ⟨rfl, rfl⟩ := Prod.mk.inj heq
    rw [html?_letter hx]
    dsimp only
    rw [isThematicBreak_letter hx, isHeading_letter hx, openingFence?_letter hx]
    dsimp only
    rw [afterDefinition?_letter hx]
    exact hparagraph

theorem containers_closeLeaf (r : Reader) (stop : Nat) :
    (r.closeLeaf stop).containers = r.containers := by
  rw [closeLeaf]
  split
  · rfl
  · rw [containers_emit]
    rfl

theorem length_frames_closeLeaf (r : Reader) (stop : Nat) :
    (r.closeLeaf stop).frames.length = r.frames.length := by
  rw [← length_containers, containers_closeLeaf, length_containers]

/-- Behind the mark of an entry without a task marker, no other container starts. -/
theorem openContainers_words (r : Reader) (l : SourceLine) (below : List SourceLine) (words : Words)
    (fuel : Nat) : openContainers l below fuel r ⟨words.text, offset, column, 0⟩ =
      (r, some ⟨words.text, offset, column, 0⟩) := by
  obtain ⟨x, cs, htext, hx⟩ := words.exists_cons
  obtain ⟨-, hblank, -⟩ := startsContent_of_isLetter hx
  have hitem : itemMark? ⟨x :: cs, offset, column, 0⟩ 0 = none := by
    rw [itemMark?, listMark?_letter hx]
    rfl
  have hquote : quoteMark? ⟨x :: cs, offset, column, 0⟩ = none :=
    if_neg fun h => ne_of_isLetter hx rfl (Option.some.inj h)
  rw [htext]
  cases fuel with
  | zero => rfl
  | succ fuel =>
    simp only [openContainers, skip_of_not_isSpaceTab hblank, hitem, hquote]

/-- The mark of an entry opens an item, and what follows opens a paragraph. -/
theorem openContainers_entry (hb : isBullet b)
    (hopen : r.continueList offset ⟨b, 0, 1⟩ = { frames })
    (hl : textStop l = l.bodyStop) (below : List SourceLine) (fuel : Nat) :
    (match openContainers l below (fuel + 1) r ⟨b :: ' ' :: Entry.content check words,
      offset, column, 0⟩ with
      | (r, none) => r
      | (r, some c) => if isBlankLine c.rest then r.blankLine else r.openLeaf l below c) =
    { frames := ⟨.item 2, offset, []⟩ :: frames,
      leaf :=
        some (.paragraph (Entry.wordsStart check (offset + 2)) (Entry.tasks check (offset + 2))
          ⟨Entry.wordsStart check (offset + 2), l.bodyStop⟩) } := by
  obtain ⟨x, cs, hcontent, hx⟩ := exists_content check words
  obtain ⟨hblank, -, -⟩ := startsContent_spec hx
  have hitem : itemMark? ⟨b :: ' ' :: Entry.content check words, offset, column, 0⟩ 0 =
      some (⟨b, 0, 1⟩, ⟨Entry.content check words, offset + 2, column + 2, 0⟩, 2) :=
    hcontent ▸ itemMark?_bullet hb hx
  have hcontentBlank : isBlankLine (Entry.content check words) = false :=
    hcontent ▸ isBlankLine_cons hblank
  simp only [openContainers, skip_of_not_isSpaceTab (isSpaceTab_bullet hb), hitem,
    Nat.sub_zero, hopen, hcontentBlank]
  cases check with
  | none =>
    obtain ⟨x, cs, htext, hx⟩ := words.exists_cons
    simp only [Entry.content, htext, taskMark?_letter hx]
    rw [← htext, openContainers_words, if_neg Bool.false_ne_true]
    dsimp only
    rw [htext, isBlankLine_cons (startsContent_of_isLetter hx).1, if_neg Bool.false_ne_true,
      ← htext]
    refine (openLeaf_words l below words).trans ?_
    rw [hl]
    rfl
  | some c =>
    obtain ⟨x, cs, htext, hx⟩ := words.exists_cons
    obtain ⟨hblank, hspace, -⟩ := startsContent_of_isLetter hx
    have hrest : isBlankLine (' ' :: words.text) = false := by
      rw [htext, isBlankLine, List.all_cons, List.all_cons, hblank, Bool.false_and, Bool.and_false]
    have hskip : LineCursor.skipAll ⟨' ' :: words.text, offset + 2 + 3, column + 2 + 3, 0⟩ =
        ⟨words.text, offset + 2 + 3 + 1, column + 2 + 3 + 1, 0⟩ := by
      rw [LineCursor.skipAll, htext, List.takeWhile_cons_of_pos rfl,
        List.takeWhile_cons_of_neg (Bool.eq_false_iff.1 hspace)]
      rfl
    simp only [Entry.content, taskMark?_check]
    rw [if_neg Bool.false_ne_true, hrest, if_neg Bool.false_ne_true, hskip]
    dsimp only
    rw [openParagraph_words, hl]
    rfl

/-- The reader after closing all but the outermost containers. -/
def closedTo (r : Reader) (count stop : Nat) : Reader :=
  popMany stop (r.frames.length - count) (r.closeLeaf stop)

theorem popMany_add (stop m n : Nat) (r : Reader) :
    popMany stop (m + n) r = popMany stop n (popMany stop m r) := by
  induction m generalizing r with
  | zero => rw [Nat.zero_add]; rfl
  | succ m ih => rw [Nat.succ_add, popMany, ih]; rfl

/-- The next entry at depth `d`, in a line that starts at `s`, goes on with the list in which the
    frames end, or opens it. -/
structure Opens (b : Char) (d s : Nat) (r : Reader) (frames : List Frame) : Prop where
  exists_behind : ∃ k, r.Behind b k ∧ d ≤ k ∧
    (r.closedTo (if d < k then 2 * d + 1 else 2 * d) s).continueList (s + 2 * d) ⟨b, 0, 1⟩ =
      { frames }

/-- The reader behind the line of an entry. -/
def afterLine (b : Char) (d s : Nat) (check : Option Check) (words : Words) (frames : List Frame) :
    Reader where
  frames := ⟨.item 2, s + 2 * d, []⟩ :: frames
  leaf :=
    some (.paragraph (Entry.wordsStart check (s + 2 * d + 2)) (Entry.tasks check (s + 2 * d + 2))
      ⟨Entry.wordsStart check (s + 2 * d + 2), Entry.lineStop b d s check words⟩)

/-- The line of an entry opens its item and a paragraph. -/
theorem Opens.line_entry (h : r.Opens b d l.start frames) (hb : isBullet b)
    (hbody : l.body = Entry.line b d check words) (below : List SourceLine) :
    r.line l below = afterLine b d l.start check words frames := by
  obtain ⟨k, h, hd, hopen⟩ := h.exists_behind
  have hstop : l.bodyStop = Entry.lineStop b d l.start check words := by
    rw [SourceLine.bodyStop, hbody]
    rfl
  rw [h.line_eq hb hd hbody, startLine, containers_closeLeaf, h.matchAll_eq hb hd hbody]
  dsimp only
  rw [length_frames_closeLeaf]
  refine (openContainers_entry hb hopen (textStop_eq hbody) below l.body.length).trans ?_
  rw [hstop]
  rfl

section

variable {children : List Node} {s : Nat}

theorem behind_afterLine (hstack : Stack b d frames) :
    Behind b (d + 1) (afterLine b d s check words (⟨.list b 0 true, start, children⟩ :: frames)) :=
  ⟨.cons hstack, .inr ⟨_, _, _, rfl⟩, rfl⟩

/-- The line of an entry goes to its item when it is followed by a line that is no part of it. -/
theorem closeLeaf_afterLine :
    (afterLine b d s check words frames).closeLeaf (Entry.lineStop b d s check words + 1) =
      { frames := ⟨.item 2, s + 2 * d, [.block .paragraph ⟨Entry.wordsStart check (s + 2 * d + 2),
          Entry.lineStop b d s check words + 1⟩ (Entry.inlines b d s check words)]⟩ :: frames } :=
    rfl

/-- Below an entry the first entry opens a list. -/
theorem opens_afterLine (hstack : Stack b d frames) :
    Opens b (d + 1) (Entry.lineStop b d s check words + 1)
      (afterLine b d s check words (⟨.list b 0 true, start, children⟩ :: frames))
      (⟨.list b 0 true, Entry.lineStop b d s check words + 1 + 2 * (d + 1), []⟩ ::
        ⟨.item 2, s + 2 * d, [.block .paragraph ⟨Entry.wordsStart check (s + 2 * d + 2),
          Entry.lineStop b d s check words + 1⟩ (Entry.inlines b d s check words)]⟩ ::
        ⟨.list b 0 true, start, children⟩ :: frames) := by
  have hbehind : Behind b (d + 1)
      (afterLine b d s check words (⟨.list b 0 true, start, children⟩ :: frames)) :=
    behind_afterLine hstack
  refine ⟨d + 1, hbehind, Nat.le_refl _, ?_⟩
  rw [if_neg (Nat.lt_irrefl _), closedTo, hbehind.stack.length_eq, Nat.sub_self,
    closeLeaf_afterLine]
  rfl

/-- An entry without entries below it is closed behind its line. -/
theorem closedTo_afterLine (hstack : Stack b d frames) :
    (afterLine b d s check words (⟨.list b 0 true, start, children⟩ :: frames)).closedTo (2 * d + 1)
      (Entry.lineStop b d s check words + 1) =
    { frames := ⟨.list b 0 true, start,
        .block .item ⟨s + 2 * d, Entry.lineStop b d s check words + 1⟩
          [.block .paragraph ⟨Entry.wordsStart check (s + 2 * d + 2),
            Entry.lineStop b d s check words + 1⟩ (Entry.inlines b d s check words)] ::
        children⟩ :: frames } := by
  have hbehind : Behind b (d + 1)
      (afterLine b d s check words (⟨.list b 0 true, start, children⟩ :: frames)) :=
    behind_afterLine hstack
  have hone : 2 * (d + 1) - (2 * d + 1) = 1 := by omega
  rw [closedTo, hbehind.stack.length_eq, hone, closeLeaf_afterLine]
  rfl

end

/-- A text is read, and the reader stands behind an entry at depth `d` or below one. Once what is
    below is closed, the frames are left. -/
def ReadsTo (b : Char) (d s : Nat) (r : Reader) (cs rest : Text) (frames : List Frame) : Prop :=
  ∃ (r' : Reader) (k : Nat), r'.Behind b k ∧ d < k ∧
    r.lines (SourceLine.listOf s (Text.lines (cs ++ rest))) =
      r'.lines (SourceLine.listOf (s + Text.width cs) (Text.lines rest)) ∧
    r'.closedTo (2 * d + 1) (s + Text.width cs) = { frames }

/-- Closing more is closing some, and then the others. -/
theorem closedTo_eq {n m : Nat} (h : n + m ≤ r.frames.length) :
    r.closedTo n stop = popMany stop m (r.closedTo (n + m) stop) := by
  have hcount : r.frames.length - n = r.frames.length - (n + m) + m := by omega
  rw [closedTo, closedTo, ← popMany_add, hcount]

/-- The list below an entry is closed, then the entry. -/
theorem popMany_nested (hb : isBullet b) {p q start : Nat} {paragraph : Node} {entries : List Entry}
    {children : List Node} {s : Nat} :
    popMany stop 2 { frames := ⟨.list b 0 true, p, (Entry.openNodes b d s entries).reverse ++ []⟩ ::
      ⟨.item 2, q, [paragraph]⟩ :: ⟨.list b 0 true, start, children⟩ :: frames } =
    { frames := ⟨.list b 0 true, start, .block .item ⟨q, stop⟩ [paragraph,
        .block (.list none) ⟨p, stop⟩ (Entry.nodes b d s entries)] :: children⟩ :: frames } := by
  have hstart : listStart b 0 = none := if_pos hb
  have hnodes : ((Entry.openNodes b d s entries).reverse ++ []).reverse.map Node.tightItem =
      Entry.nodes b d s entries := by
    rw [List.append_nil, List.reverse_reverse, Entry.map_tightItem_openNodes]
  have hnode : Frame.node ⟨.list b 0 true, p, (Entry.openNodes b d s entries).reverse ++ []⟩ stop =
      .block (.list none) ⟨p, stop⟩ (Entry.nodes b d s entries) := by
    rw [Frame.node]
    dsimp only
    rw [hstart, if_pos rfl, hnodes]
  rw [← hnode]
  rfl

/-- An entry goes on with the list of its own mark. -/
theorem continueList_of_list {children : List Node} (place : Nat) :
    continueList { frames := ⟨.list b 0 true, start, children⟩ :: frames } place ⟨b, 0, 1⟩ =
      { frames := ⟨.list b 0 true, start, children⟩ :: frames } := if_neg (not_not_intro rfl)

/-- The first line of a text is read, then the others. -/
theorem lines_listOf (hclean : ∀ c ∈ cs, Text.isLineEnd c = false) (r : Reader)
    (s : Nat) (rest : Text) :
    ∃ stop terminated below, r.lines (SourceLine.listOf s (Text.lines (cs ++ '\n' :: rest))) =
      (r.line ⟨s, cs, stop, terminated⟩ below).lines
        (SourceLine.listOf (s + Text.width cs + 1) (Text.lines rest)) := by
  have hbody : Text.chomp (cs ++ ['\n']) = cs := Text.chomp_append hclean (by decide)
  have hstop : s + Text.width (cs ++ ['\n']) = s + Text.width cs + 1 := by
    rw [Text.width_append, Nat.add_assoc]
    rfl
  rw [Text.lines_append_newline hclean, SourceLine.listOf, hbody, hstop]
  exact ⟨_, _, _, rfl⟩

mutual

/-- An entry is read, with what is below it. -/
theorem Opens.readsTo_text (hb : isBullet b) : ∀ (e : Entry) {r : Reader} {d s start : Nat}
    {children : List Node} {frames : List Frame} (rest : Text), Stack b d frames →
    r.Opens b d s (⟨.list b 0 true, start, children⟩ :: frames) →
    r.ReadsTo b d s (e.text b d) rest
      (⟨.list b 0 true, start, e.openNode b d s :: children⟩ :: frames)
  | .mk check words below, r, d, s, start, children, frames, rest, hstack, h => by
    obtain ⟨stop, terminated, more, hlines⟩ :=
      lines_listOf (Entry.isLineEnd_line hb d check words) r s
        (Entry.textOf b (d + 1) below ++ rest)
    rw [h.line_entry hb rfl] at hlines
    have hwidth : s + Text.width ((Entry.mk check words below).text b d) =
        Entry.lineStop b d s check words + 1 + Text.width (Entry.textOf b (d + 1) below) := by
      rw [Entry.text, Text.width_append, Text.width_cons, Entry.lineStop,
        Nat.add_assoc, Nat.add_assoc]
      rfl
    have htext : (Entry.mk check words below).text b d ++ rest =
        Entry.line b d check words ++ '\n' :: (Entry.textOf b (d + 1) below ++ rest) := by
      rw [Entry.text, List.append_assoc]
      rfl
    rw [ReadsTo, htext, hwidth]
    cases below with
    | nil =>
      refine ⟨_, d + 1, behind_afterLine hstack, Nat.lt_succ_self d, hlines, ?_⟩
      refine (closedTo_afterLine hstack).trans ?_
      rw [Entry.openNode, hwidth]
      rfl
    | cons e entries =>
      obtain ⟨r', k, hbehind, hk, hmore, hclosed⟩ :=
        (opens_afterLine hstack).readsTo_textOf hb (e :: entries) rest
          (List.cons_ne_nil e entries) (.cons hstack)
      refine ⟨r', k, hbehind, Nat.lt_of_succ_lt hk, hlines.trans hmore, ?_⟩
      have hcount : 2 * d + 1 + 2 ≤ r'.frames.length := by
        rw [hbehind.stack.length_eq]
        omega
      have hclosed' : r'.closedTo (2 * d + 1 + 2) _ = _ := hclosed
      rw [closedTo_eq hcount, hclosed', popMany_nested hb, Entry.openNode, hwidth]
      rfl

/-- Entries are read, with what is below them. -/
theorem Opens.readsTo_textOf (hb : isBullet b) :
    ∀ (entries : List Entry) {r : Reader} {d s start : Nat} {children : List Node}
    {frames : List Frame} (rest : Text), entries ≠ [] → Stack b d frames →
    r.Opens b d s (⟨.list b 0 true, start, children⟩ :: frames) →
    r.ReadsTo b d s (Entry.textOf b d entries) rest
      (⟨.list b 0 true, start, (Entry.openNodes b d s entries).reverse ++ children⟩ :: frames)
  | [], _, _, _, _, _, _, _, hne, _, _ => absurd rfl hne
  | e :: entries, r, d, s, start, children, frames, rest, hne, hstack, h => by
    obtain ⟨r', k, hbehind, hk, hlines, hclosed⟩ :=
      h.readsTo_text hb e (Entry.textOf b d entries ++ rest) hstack
    have htext : Entry.textOf b d (e :: entries) ++ rest =
        e.text b d ++ (Entry.textOf b d entries ++ rest) := by
      rw [Entry.textOf, List.append_assoc]
    have hwidth : s + Text.width (Entry.textOf b d (e :: entries)) =
        s + Text.width (e.text b d) + Text.width (Entry.textOf b d entries) := by
      rw [Entry.textOf, Text.width_append, Nat.add_assoc]
    rw [ReadsTo, htext, hwidth, hlines]
    by_cases hentries : entries = []
    · subst hentries
      exact ⟨r', k, hbehind, hk, rfl, hclosed⟩
    · have hopens : r'.Opens b d (s + Text.width (e.text b d))
          (⟨.list b 0 true, start, e.openNode b d s :: children⟩ :: frames) :=
        ⟨k, hbehind, Nat.le_of_lt hk, by rw [if_pos hk, hclosed]; exact continueList_of_list _⟩
      obtain ⟨r'', k', hbehind', hk', hlines', hclosed'⟩ :=
        hopens.readsTo_textOf hb entries rest hentries hstack
      refine ⟨r'', k', hbehind', hk', hlines', ?_⟩
      rw [hclosed', Entry.openNodes, List.reverse_cons, List.append_assoc]
      rfl

end

theorem finish_eq (r : Reader) (stop : Nat) :
    r.finish stop = (r.closedTo 0 stop).nodes.reverse := by
  rw [finish, closedTo, Nat.sub_zero, length_frames_closeLeaf]

end Reader

/-- An outline is read as the list of its entries. -/
theorem structureOf_textOf (hb : isBullet b) (entries : List Entry) :
    structureOf (Entry.textOf b 0 entries) = Entry.nested b 0 0 entries := by
  cases entries with
  | nil => rfl
  | cons e entries =>
    have hopens : Reader.Opens b 0 0 {} [⟨.list b 0 true, 0, []⟩] :=
      ⟨0, ⟨.nil, .inl rfl, rfl⟩, Nat.le_refl 0, rfl⟩
    obtain ⟨r, k, hbehind, hk, hlines, hclosed⟩ :=
      hopens.readsTo_textOf hb (e :: entries) [] (List.cons_ne_nil e entries) .nil
    have hcount : 0 + 1 ≤ r.frames.length := by
      rw [hbehind.stack.length_eq]
      omega
    rw [List.append_nil, Nat.zero_add] at hlines
    rw [List.append_nil] at hclosed
    have hclosed' : r.closedTo (0 + 1) (Text.width (Entry.textOf b 0 (e :: entries))) =
        { frames := [⟨.list b 0 true, 0, (Entry.openNodes b 0 0 (e :: entries)).reverse⟩] } := by
      rw [← Nat.zero_add (Text.width _)]
      exact hclosed
    have hstart : listStart b 0 = none := if_pos hb
    rw [structureOf, SourceLine.ofText, hlines]
    change r.finish _ = _
    rw [Reader.finish_eq, Reader.closedTo_eq hcount, hclosed', Entry.nested, Nat.mul_zero,
      Nat.add_zero, Nat.zero_add]
    change [Frame.node ⟨.list b 0 true, 0, (Entry.openNodes b 0 0 (e :: entries)).reverse⟩ _] = _
    rw [Frame.node]
    dsimp only
    rw [hstart, if_pos rfl, List.reverse_reverse, Entry.map_tightItem_openNodes, Entry.nodes,
      Nat.zero_add]

end Markup

end Taskdown
