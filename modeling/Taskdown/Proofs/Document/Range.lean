import Taskdown.Proofs.Document.Bounds
import Taskdown.Proofs.Markup.Regularity
import Taskdown.Proofs.Output.Recording
import Taskdown.Proofs.Source.Indenting

/-!
# What is computed of a document is in range

While a document is laid out, indentation is cut off from lines, columns are subtracted from one
another, numbers are counted up, items are moved, and the lengths of lines are summed. Of a document
that fits a source of less than 2²⁸ bytes none of this goes wrong:

* `View.Strips`: indentation is cut off between two characters of the line;
* `Item.Measured`: the column behind the marker of an item is no greater than the one behind the gap
  after it;
* `Block.InRange`: these hold all over a block, its lists can be arranged, and their numbers are
  small;
* `Script.RunsInRange`: after every step of a script there is a record of every line, and there are
  at least as many lines as are dropped at the end;
* `FormatOptions.format_stays_in_range`: the structure of every text is regular, so all texts of
  this size are formatted.
-/

namespace Taskdown

/-! ## Indentation -/

namespace View

/-- What is dropped of a text is spaces and tabs at its start. -/
theorem exists_eq_append_dropIndent (limit column : Nat) (cs : Text) :
    ∃ front, cs = front ++ dropIndent limit column cs ∧ ∀ c ∈ front, Text.isSpaceTab c := by
  induction cs generalizing column with
  | nil => exact ⟨[], rfl, List.forall_mem_nil _⟩
  | cons c cs ih =>
    rw [dropIndent]
    split
    · next h =>
      obtain ⟨front, hfront, hblank⟩ := ih (nextColumn column c)
      exact ⟨c :: front, congrArg (c :: ·) hfront,
        List.forall_mem_cons.2 ⟨(Bool.and_eq_true_iff.1 h).2, hblank⟩⟩
    · exact ⟨[], rfl, List.forall_mem_nil _⟩

/-- The number of characters of indentation that are dropped of a text. -/
def indentLength (indent : Nat) (cs : Text) : Nat := cs.length - (dropIndent indent 0 cs).length

/-- From every line of the view its indentation can be cut off. -/
def Strips (v : View) (indent : Nat) : Prop :=
  ∀ line ∈ v.withIndent.trimEnd.lines, ∃ rest,
    line.chomp.subFrom (indentLength indent line.chomp.text) = .ok rest ∧
    rest.text = dropIndent indent 0 line.chomp.text

theorem Sound.strips {v : View} (h : v.Sound) (indent : Nat) : v.Strips indent := by
  intro line hline
  obtain ⟨before, cs, behind, hshows, hcs⟩ := (h.withIndent none).trimEnd.exists_of_mem_lines hline
  obtain ⟨behind', hchomp⟩ := hshows.chomp hcs
  generalize line.chomp = body at hchomp
  obtain ⟨front, hfront, hblank⟩ := exists_eq_append_dropIndent indent 0 (Text.chomp cs)
  rw [hchomp.text_eq]
  -- The indentation has as many bytes as it has characters.
  have hcut : indentLength indent (Text.chomp cs) = Text.width front := by
    have hlength := congrArg List.length hfront
    rw [List.length_append] at hlength
    rw [indentLength, hlength, Nat.add_sub_cancel, width_eq_length hblank]
  rw [hcut]
  rw [hfront] at hchomp
  generalize dropIndent indent 0 (Text.chomp cs) = rest at hchomp ⊢
  have hrest : (body.withSpan ⟨body.start + Text.width front, body.start + body.length⟩).Shows
      (before ++ front) rest
      behind' := by
    refine ⟨?_, ?_, ?_⟩
    · rw [List.append_assoc, ← List.append_assoc front]
      exact hchomp.source
    · rw [Text.width_append, ← hchomp.start]
      rfl
    · change body.start + body.length = _
      rw [← hchomp.width_eq_length, hchomp.start, List.append_assoc, Text.width_append before]
  have hlength := hchomp.width_eq_length
  rw [Text.width_append] at hlength
  have hstart : Text.isBoundary body.source.text (body.start + Text.width front) :=
    hrest.sound.isBoundary_start
  have hstop : Text.isBoundary body.source.text (body.start + body.length) :=
    hrest.sound.isBoundary_stop
  refine ⟨_, ?_, hrest.text_eq⟩
  rw [subFrom, sub, if_neg (by omega), checkBoundary, if_pos hstart, checkBoundary, if_pos hstop]
  rfl

end View

/-! ## Columns -/

/-- The column of the content of an item can be computed. Between the start of the line, the end of
    the marker and the end of the gap behind it the source is cut at boundaries, in this order; the
    columns of the two ends have a difference, and both are small. -/
structure Item.Measured (source : Source) (item : Item) : Prop where
  marker : item.marker.Within source
  gap : (item.marker.atStop.extendOver [' ', '\t']).Within source
  lineStart : Text.isBoundary source.text (source.lineStart item.marker.start)
  lineStart_le : source.lineStart item.marker.start ≤ item.marker.stop
  stop_le : item.marker.stop ≤ (item.marker.atStop.extendOver [' ', '\t']).stop
  column_le : View.columnAfter 0
    (Text.slice source.text (source.lineStart item.marker.start) item.marker.stop) ≤
      View.columnAfter 0 (Text.slice source.text (source.lineStart item.marker.start)
        (item.marker.atStop.extendOver [' ', '\t']).stop)
  contentColumn_eq : item.contentColumn = Item.contentColumnOf item.marker
  contentColumn_le : item.contentColumn ≤ 4 * source.size + 1

theorem Item.HasMarkers.measured {source : Source} {item : Item} (h : item.HasMarkers source) :
    item.Measured source := by
  obtain ⟨hsource, hsound⟩ := h.marker
  obtain ⟨hline, hlineLe⟩ := Source.lineStart_le (hsource ▸ hsound.isBoundary_start)
  obtain ⟨before, cs, behind, hshows⟩ := hsound
  -- The line starts before the marker, and the gap starts behind it.
  obtain ⟨front, middle, hfront, hwidth⟩ := Text.isBoundary_iff.1 hline
  have hbefore : front ++ middle = before ++ (cs ++ behind) := by
    rw [← hfront, ← hsource, hshows.source]
  obtain ⟨indent, rfl⟩ :=
    Text.prefix_of_width_le hbefore (by rw [hwidth, ← hshows.start]; exact hlineLe)
  have hstop : item.marker.atStop.Shows ((front ++ indent) ++ cs) [] behind :=
    ⟨by rw [List.nil_append, List.append_assoc]; exact hshows.source, hshows.stop,
      by rw [List.append_nil]; exact hshows.stop⟩
  obtain ⟨rest, hrest⟩ : behind.takeWhile ([' ', '\t'] : Text).contains <+: behind :=
    List.takeWhile_prefix _
  have hgap := hstop.extendOver [' ', '\t'] none hrest.symm rfl
  generalize behind.takeWhile ([' ', '\t'] : Text).contains = gap at hrest hgap
  rw [List.nil_append] at hgap
  have hsource' : source.text = front ++ ((indent ++ cs) ++ (gap ++ rest)) := by
    rw [hrest, ← hsource, hshows.source]
    simp only [List.append_assoc]
  have hmarkerSlice : Text.slice source.text (source.lineStart item.marker.start) item.marker.stop =
      indent ++ cs := by
    rw [← hwidth, hshows.stop, List.append_assoc, Text.width_append front, hsource',
      Text.slice_append_append]
  have hgapSlice : Text.slice source.text (source.lineStart item.marker.start)
      (item.marker.atStop.extendOver [' ', '\t']).stop = (indent ++ cs) ++ gap := by
    have hall : source.text = front ++ (((indent ++ cs) ++ gap) ++ rest) := by
      rw [hsource', List.append_assoc _ gap]
    rw [← hwidth, hgap.stop, List.append_assoc front, List.append_assoc front,
      Text.width_append front, hall, Text.slice_append_append]
  have hlength : (indent ++ cs ++ gap).length ≤ source.size := by
    refine Nat.le_trans (Text.length_le_width _) ?_
    rw [Source.size, hsource', ← List.append_assoc _ gap, Text.width_append front,
      Text.width_append (indent ++ cs ++ gap)]
    omega
  have hcolumns := (View.columnAfter_bounds (View.columnAfter 0 (indent ++ cs)) gap).1
  rw [← View.columnAfter_append] at hcolumns
  have hlimit := (View.columnAfter_bounds 0 (indent ++ cs ++ gap)).2
  refine
    { marker := h.marker
      gap := ⟨hsource, hgap.sound⟩
      lineStart := hline
      lineStart_le := Nat.le_trans hlineLe hshows.sound.le
      stop_le := ?_
      column_le := ?_
      contentColumn_eq := h.column
      contentColumn_le := ?_ }
  · rw [hgap.stop, hshows.stop, Text.width_append _ gap]
    exact Nat.le_add_right _ _
  · rwa [hmarkerSlice, hgapSlice]
  · rw [h.column, Item.contentColumnOf]
    rw [hsource, hmarkerSlice, hgapSlice]
    split <;> omega

/-! ## Blocks -/

mutual

/-- What is computed of a block in an item whose content starts at a column is in range. -/
inductive Block.InRange (o : FormatOptions) (source : Source) : Nat → Block → Prop
  | paragraph {indent : Nat} {view : View} : view.Within source →
      Block.InRange o source indent (.paragraph view)
  | heading {indent : Nat} {view : View} : view.Within source →
      Block.InRange o source indent (.heading view)
  | code {indent : Nat} {view : View} : view.Within source → view.Strips indent →
      Block.InRange o source indent (.code view)
  | other {indent : Nat} {view : View} : view.Within source → view.Strips indent →
      Block.InRange o source indent (.other view)
  /-- The items of a list can be arranged, and have numbers. -/
  | list {indent : Nat} {view : View} {start : Option Nat} {loose : Bool}
      {items arranged : List Item} : o.arrange items = .ok arranged →
      (∀ n ∈ start, n + items.length ≤ maxLength) → Item.AllInRange o source items →
      Block.InRange o source indent (.list view start loose items)

/-- What is computed of items is in range. -/
inductive Item.AllInRange (o : FormatOptions) (source : Source) : List Item → Prop
  | nil : Item.AllInRange o source []
  | cons {item : Item} {items : List Item} : item.Measured source →
      Block.AllInRange o source item.contentColumn item.children → Item.AllInRange o source items →
      Item.AllInRange o source (item :: items)

/-- What is computed of blocks is in range. -/
inductive Block.AllInRange (o : FormatOptions) (source : Source) : Nat → List Block → Prop
  | nil {indent : Nat} : Block.AllInRange o source indent []
  | cons {indent : Nat} {block : Block} {blocks : List Block} :
      Block.InRange o source indent block → Block.AllInRange o source indent blocks →
      Block.AllInRange o source indent (block :: blocks)

end

section

variable {o : FormatOptions} {source : Source}

mutual

theorem Block.Fits.inRange (hsize : source.size < 268435456) :
    ∀ {block : Block} {indent : Nat}, block.Fits source → block.weight ≤ 2 * source.size →
    block.InRange o source indent
  | .paragraph _, _, .paragraph h, _ => .paragraph h
  | .heading _, _, .heading h, _ => .heading h
  | .code _, indent, .code h, _ => .code h (h.sound.strips indent)
  | .other _, indent, .other h, _ => .other h (h.sound.strips indent)
  | .list view start loose items, _, .list hstart _ h, hweight => by
    rw [Block.weight] at hweight
    obtain ⟨hrange, hlength⟩ := h.inRange hsize hweight
    refine .list (o.arrangeBy_eq id items) (fun n hn => ?_) hrange
    have hn := hstart n hn
    rw [maxLength]
    omega

/-- Each item takes two units of weight, so there are not too many of them. -/
theorem Item.AllFit.inRange (hsize : source.size < 268435456) :
    ∀ {items : List Item}, Item.AllFit source items → Item.weightOf items ≤ 2 * source.size →
    Item.AllInRange o source items ∧ 2 * items.length ≤ Item.weightOf items
  | [], _, _ => ⟨.nil, Nat.zero_le _⟩
  | ⟨view, marker, task, column, children⟩ :: items, .cons hm hchildren hitems, hweight => by
    rw [Item.weightOf] at hweight
    obtain ⟨hrange, hlength⟩ := hitems.inRange hsize (by omega)
    refine ⟨.cons hm.measured
      (hchildren.inRange hsize (by change Block.weightOf children ≤ _; omega)) hrange, ?_⟩
    rw [Item.weightOf, List.length_cons]
    omega

theorem Block.AllFit.inRange (hsize : source.size < 268435456) :
    ∀ {blocks : List Block} {indent : Nat}, Block.AllFit source blocks →
    Block.weightOf blocks ≤ 2 * source.size → Block.AllInRange o source indent blocks
  | [], _, _, _ => .nil
  | block :: blocks, _, .cons hblock hblocks, hweight => by
    rw [Block.weightOf] at hweight
    exact .cons (hblock.inRange hsize (by omega)) (hblocks.inRange hsize (by omega))

end

end

/-! ## Scripts -/

/-- A new writer can follow the script. After every step there is a record of every line that has
    ended, and so there is in the end. The blank lines that are dropped then are there, and what is
    left is the start of what has been written. So a recorder follows the script and finishes,
    without an error. -/
structure Script.RunsInRange (script : Script) (maxBlankLines : Nat) : Prop where
  described : ∀ steps, steps <+: script → ∃ b, (({ maxBlankLines } : Writer).run steps).Described b
  described_finish : ∃ b, (({ maxBlankLines } : Writer).run script).finish.Described b
  trailingBlanks_le : (({ maxBlankLines } : Writer).run script).line.trailingBlanks ≤
    (({ maxBlankLines } : Writer).run script).line.ended.length
  finish_prefix : (({ maxBlankLines } : Writer).run script).finish.text <+:
    (({ maxBlankLines } : Writer).run script).line.text
  recorded : ∃ r b, ({ maxBlankLines } : Recorder).run script = .ok r ∧
    r.finish = .ok ((({ maxBlankLines } : Writer).run script).finish.text, b)

theorem Script.runsInRange_of_width_le {script : Script} {maxBlankLines : Nat}
    (h : Text.width (({ maxBlankLines } : Writer).run script).line.text ≤ maxLength) :
    script.RunsInRange maxBlankLines := by
  obtain ⟨r, b, hr, hfinish, hdescribed⟩ := Recorder.exists_finish h
  generalize hnew : ({ maxBlankLines } : Writer) = new at h
  have hclean : new.Clean := hnew ▸ Writer.clean_new maxBlankLines
  have hblanks : new.trailingBlanks ≤ new.ended.length := hnew ▸ Nat.le_refl _
  have hchain : Writer.Chain (fun _ => True) new (new.run script).line :=
    (Writer.chain_run_true new script).trans (Writer.chain_line _)
  subst hnew
  refine ⟨fun steps hsteps => ?_, ⟨b, hdescribed⟩, hchain.trailingBlanks_le hblanks,
    Writer.text_finish_prefix _, r, b, hr, hfinish⟩
  · obtain ⟨rest, rfl⟩ := hsteps
    -- What is written first is not taken back.
    have hgrows :=
      (Writer.Grows.chain (Writer.chain_run_true (({ maxBlankLines } : Writer).run steps)
        rest)).trans
      (Writer.grows_line _)
    rw [← Writer.run_append] at hgrows
    exact (hclean.chain (Writer.chain_run_true _ steps)).exists_described
      (Nat.le_trans (Text.width_le_of_prefix hgrows) h)

/-! ## Formatting -/

/-- A document is made of the structure and written, and whatever is computed on the way is in
    range: the spans of the structure, what is computed of the blocks, and what the writer adds
    up. -/
structure FormatOptions.RunsInRange (o : FormatOptions) (source : Source) (forest : List Node) :
    Prop where
  admitted : Node.Admitted (.of source) forest
  exists_run : ∃ blocks script b, Block.listOfNodes (.of source) none forest = .ok blocks ∧
    Block.AllInRange o source 0 blocks ∧ Block.scriptOfBlocks o 0 true false blocks = .ok script ∧
    script.RunsInRange o.maxBlankLines ∧
    o.write blocks = .ok (({ maxBlankLines := o.maxBlankLines } : Writer).run script).finish ∧
    (({ maxBlankLines := o.maxBlankLines } : Writer).run script).finish.lines = .ok b

/-- A structure that is spaced out over a source of less than 2²⁸ bytes is formatted with everything
    in range. -/
theorem Node.Regular.runsInRange {source : Source} {forest : List Node}
    (h : Node.Regular source forest) (hsize : source.size < 268435456) (o : FormatOptions) :
    o.RunsInRange source forest := by
  obtain ⟨blocks, hbuilt⟩ := @Block.exists_listOfNodes (.of source) forest none h.admitted nofun
  obtain ⟨hfits, hweight⟩ := Block.fits_of_regular h hbuilt
  obtain ⟨script, hscript, hwidth⟩ := Block.exists_takes_document o hsize hfits hweight
  have hruns := Script.runsInRange_of_width_le hwidth
  obtain ⟨b, hb⟩ := hruns.described_finish
  refine ⟨h.admitted, blocks, script, b, hbuilt, hfits.inRange hsize hweight, hscript,
    hruns, ?_, hb.lines⟩
  rw [FormatOptions.write, hscript]
  rfl

theorem View.shows_of (s : Source) : (View.of s).Shows [] s.text [] :=
  ⟨by rw [List.append_nil, List.nil_append]; rfl, rfl, rfl⟩

/-- The document of a text is made of its structure. -/
theorem Block.listOfView_of (text : Text) :
    Block.listOfView (View.of ⟨0, text⟩) = Block.listOfNodes (.of ⟨0, text⟩) none
    (Markup.structureOf text) := by
  rw [Block.listOfView, (View.shows_of ⟨0, text⟩).text_eq]

theorem FormatOptions.format_eq (o : FormatOptions) {text : Text} {blocks : List Block}
    (h : Block.listOfView (View.of ⟨0, text⟩) = .ok blocks) : o.format text = o.record blocks := by
  rw [format, h, bind_lift_error]

/-- A text is formatted if everything is in range. The result has the text that a writer writes. -/
theorem FormatOptions.RunsInRange.exists_format {o : FormatOptions} {text : Text}
    (h : o.RunsInRange ⟨0, text⟩ (Markup.structureOf text)) : ∃ blocks script f,
      Block.listOfView (View.of ⟨0, text⟩) = .ok blocks ∧
      Block.scriptOfBlocks o 0 true false blocks = .ok script ∧ o.format text = .ok f ∧
      f.text = (({ maxBlankLines := o.maxBlankLines } : Writer).run script).finish.text := by
  obtain ⟨blocks, script, -, hbuilt, -, hscript, hrun, -, -⟩ := h.exists_run
  obtain ⟨r, b, hr, hfinish⟩ := hrun.recorded
  have hdocument := (Block.listOfView_of text).trans hbuilt
  refine ⟨blocks, script, ⟨_, b⟩, hdocument, hscript, ?_, rfl⟩
  rw [o.format_eq hdocument, record, bind_of_eq_ok hscript, hr, bind_lift_error, hfinish,
    bind_lift_error]
  rfl

/-- Every text of less than 2²⁸ bytes is formatted, with everything in range. So it would be with
    any other structure that is spaced out over the text. -/
theorem FormatOptions.format_stays_in_range (o : FormatOptions) {text : Text}
    (hsize : Text.width text < 268435456) :
    (∃ f, o.format text = .ok f) ∧ o.RunsInRange ⟨0, text⟩ (Markup.structureOf text) ∧
      ∀ forest, Node.Regular ⟨0, text⟩ forest → o.RunsInRange ⟨0, text⟩ forest := by
  have hruns := (Markup.structureOf_regular ⟨0, text⟩).runsInRange hsize o
  obtain ⟨-, -, f, -, -, hformat, -⟩ := hruns.exists_format
  exact ⟨⟨f, hformat⟩, hruns, fun forest h => h.runsInRange hsize o⟩

theorem FormatOptions.format_stays_in_range_of_item :
    (∃ f, ({} : FormatOptions).format ['-', ' ', 'a'] = .ok f) ∧
    ({} : FormatOptions).RunsInRange ⟨0, ['-', ' ', 'a']⟩ (Markup.structureOf ['-', ' ', 'a']) ∧
      ∀ forest, Node.Regular ⟨0, ['-', ' ', 'a']⟩ forest →
        ({} : FormatOptions).RunsInRange ⟨0, ['-', ' ', 'a']⟩ forest :=
  FormatOptions.format_stays_in_range {} (by decide)

end Taskdown
