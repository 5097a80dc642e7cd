import Taskdown.Proofs.Document.Range
import Taskdown.Proofs.Document.Rereading
import Taskdown.Proofs.Markup.Outlines

/-!
# Formatting an outline

What is written of an outline is an outline again, and formatting that changes nothing
(`FormatOptions.format_outline`). Unlike `FormatOptions.format_again`, this asks nothing of what is
read of the output: the text alone says that it is an outline.

An item may be *outlined* as an entry: with the options in force it is written as the entry
(`Item.OutlinedAs`). With the standard options nothing is changed, and so an item that is outlined
as an entry with these says what the entry says. There are four steps.

* `Entry.outlined_of_becomeItems`: what is read of an outline says what its entries say;
* `Item.OutlinedAs.exists_outlined`: an item that says what an entry says is outlined as some entry
  with all other options, too;
* `Item.AllOutlinedAs.writesAt`: what is outlined as entries is written as their text;
* `Item.AllOutlinedAs.reread`: items that are outlined as entries are read again as items that say
  what these entries say.
-/

namespace Taskdown

open Markup (isBullet)

/-! ## Items and entries -/

/-- The lines of a view are one line of words. -/
structure View.HasWords (v : View) (words : Words) : Prop where
  textLines : v.textLines = [words.text]
  isEmpty : v.trim.isEmpty = false

/-- An item is written with a bullet and a task marker, and the task marker says whether the item is
    completed. -/
structure Item.HasFront (o : FormatOptions) (b : Char) (item : Item) (check : Option Check) :
    Prop where
  marker : item.marker.text = [b]
  task : o.taskMarker item = check.map Check.text
  done : ∀ t ∈ item.task, ∀ c ∈ check, t.done = c.isDone

mutual

/-- The item is written as the entry. -/
inductive Item.OutlinedAs (o : FormatOptions) (b : Char) : Item → Entry → Prop
  | mk {item : Item} {view : View} {blocks : List Block} {check : Option Check} {words : Words}
      {below : List Entry} : item.HasFront o b check → item.children = .paragraph view :: blocks →
      view.HasWords words → Block.OutlinedAs o b blocks below →
      Item.OutlinedAs o b item (.mk check words below)

/-- The items are written as the entries. -/
inductive Item.AllOutlinedAs (o : FormatOptions) (b : Char) : List Item → List Entry → Prop
  | nil : Item.AllOutlinedAs o b [] []
  | cons {item : Item} {items : List Item} {e : Entry} {entries : List Entry} :
      Item.OutlinedAs o b item e → Item.AllOutlinedAs o b items entries →
      Item.AllOutlinedAs o b (item :: items) (e :: entries)

/-- The blocks below the text of an item are written as the entries. -/
inductive Block.OutlinedAs (o : FormatOptions) (b : Char) : List Block → List Entry → Prop
  | nil : Block.OutlinedAs o b [] []
  | list {view : View} {items : List Item} {e : Entry} {entries : List Entry} :
      Item.AllOutlinedAs o b (o.arranged id items) (e :: entries) →
      Block.OutlinedAs o b [.list view none false items] (e :: entries)

end

/-! ## Words in view -/

/-- Nothing is dropped at the end if the last character is to be kept. -/
theorem Text.dropEndWhile_concat {p : Char → Bool} {x : Char} (h : p x = false) (cs : Text) :
    Text.dropEndWhile p (cs ++ [x]) = cs ++ [x] := by
  obtain ⟨tail, htail, hall⟩ := Text.exists_eq_dropEndWhile_append p (cs ++ [x])
  rcases List.eq_nil_or_concat' tail with rfl | ⟨ds, y, rfl⟩
  · rw [List.append_nil] at htail
    exact htail.symm
  · rw [← List.append_assoc] at htail
    obtain rfl := List.singleton_inj.1 (List.append_inj' htail rfl).2
    rw [List.all_append, List.all_cons, h, Bool.false_and, Bool.and_false] at hall
    cases hall

/-- A text without line terminators is one line. -/
theorem Text.lines_of_forall {cs : Text} (hne : cs ≠ []) (h : ∀ c ∈ cs, Text.isLineEnd c = false) :
    Text.lines cs = [cs] := by
  induction cs with
  | nil => exact absurd rfl hne
  | cons c cs ih =>
    obtain ⟨hc, hcs⟩ := List.forall_mem_cons.1 h
    have hreturn : c ≠ '\r' := fun hc' => by rw [hc'] at hc; cases hc
    rw [Text.lines, if_neg (Bool.eq_false_iff.1 hc)]
    · cases cs with
      | nil => rfl
      | cons d ds => rw [ih (List.cons_ne_nil d ds) hcs]
    · exact fun _ hc' => absurd hc' hreturn

theorem Text.isWhiteSpace_of_isLetter {x : Char} (h : Text.isLetter x) :
    Text.isWhiteSpace x = false := by
  have ha : 'a'.toNat = 97 := rfl
  have hz : 'z'.toNat = 122 := rfl
  have hA : 'A'.toNat = 65 := rfl
  have hZ : 'Z'.toNat = 90 := rfl
  simp only [Text.isLetter, Bool.or_eq_true, Bool.and_eq_true, decide_eq_true_eq, Char.le_def,
    UInt32.le_iff_toNat_le] at h
  simp only [Text.isWhiteSpace, Bool.or_eq_false_iff, Bool.and_eq_false_iff,
    decide_eq_false_iff_not, Char.toNat] at *
  omega

namespace Words

variable (words : Words)

theorem exists_concat : ∃ cs x, words.text = cs ++ [x] ∧ Text.isTrimmed x = false := by
  obtain ⟨y, ys, htext, -⟩ := words.exists_cons
  obtain ⟨cs, x, hconcat⟩ := (List.eq_nil_or_concat' words.text).resolve_left
    (htext ▸ List.cons_ne_nil y ys)
  have hlast := words.last
  have hend := words.isLineEnd_eq x (hconcat ▸ List.mem_append_right _ (List.mem_singleton_self x))
  rw [hconcat, List.getLast?_concat, Option.all_some, Bool.not_eq_true', Markup.isLineBlank,
    Bool.or_eq_false_iff, Bool.or_eq_false_iff] at hlast
  exact ⟨cs, x, hconcat, by rw [Text.isTrimmed, Text.isSpaceTab, hlast.1.1, hend]; rfl⟩

theorem isBlank_eq : Text.isBlank words.text = false := by
  obtain ⟨x, cs, htext, hx⟩ := words.exists_cons
  rw [htext, Text.isBlank, List.all_cons, Text.isWhiteSpace_of_isLetter hx, Bool.false_and]

/-- Trimming leaves words as they are. -/
theorem shows_trimStart {v : View} {before behind : Text} (h : v.Shows before words.text behind) :
    v.trimStart.Shows before words.text behind := by
  obtain ⟨x, cs, htext, hx⟩ := words.exists_cons
  have hfirst : ¬ Text.isTrimmed x := fun htrimmed => by
    have hspace := Text.isWhiteSpace_of_isTrimmed htrimmed
    rw [Text.isWhiteSpace_of_isLetter hx] at hspace
    cases hspace
  have hstart := h.trimStart
  rwa [htext, List.takeWhile_cons_of_neg hfirst, List.dropWhile_cons_of_neg hfirst, ← htext,
    List.append_nil] at hstart

theorem shows_trim {v : View} {before behind : Text} (h : v.Shows before words.text behind) :
    ∃ behind', v.trim.Shows before words.text behind' := by
  obtain ⟨cs, y, hconcat, hy⟩ := words.exists_concat
  obtain ⟨behind', hend⟩ := (words.shows_trimStart h).trimEnd
  rw [hconcat, Text.dropEndWhile_concat hy, ← hconcat] at hend
  exact ⟨behind', hend⟩

/-- A view of words has these words and nothing else. -/
theorem hasWords {v : View} {before behind : Text} (h : v.Shows before words.text behind) :
    v.HasWords words := by
  obtain ⟨x, cs, htext, -⟩ := words.exists_cons
  have hne : words.text ≠ [] := htext ▸ List.cons_ne_nil x cs
  have hchomp : Text.chomp words.text = words.text := by
    have := Text.chomp_append words.isLineEnd_eq List.mem_cons_self
    rwa [List.append_nil] at this
  obtain ⟨behind', htrim⟩ := words.shows_trim h
  have hline : Text.IsLine words.text :=
    Text.isLine_of_mem_lines (Text.lines_of_forall hne words.isLineEnd_eq ▸
      List.mem_singleton_self _)
  have hlines : v.trim.lines = [v.trim] := by
    rw [View.lines, htrim.text_eq, Text.lines_of_forall hne words.isLineEnd_eq,
      View.tile, View.tile, htrim.start, ← Text.width_append, ← htrim.start, ← htrim.stop]
    rfl
  obtain ⟨behind'', hshows⟩ := (words.shows_trimStart htrim).chomp hline
  refine ⟨?_, ?_⟩
  · rw [View.textLines, hlines, List.map_singleton, hshows.text_eq, hchomp]
  · rw [htrim.isEmpty_eq, htext]
    rfl

end Words

/-! ## What is read -/

theorem isItemMarker_bullet {b : Char} (hb : isBullet b) : Text.IsItemMarker [b] := by
  simp only [isBullet, Bool.or_eq_true, decide_eq_true_eq] at hb
  rcases hb with (rfl | rfl) | rfl <;> exact .bullet (by decide)

theorem Check.width_text (c : Check) : Text.width c.text = 3 := by
  rcases c with _ | _ | _ <;> rfl

theorem View.shows_of_ofSpan {source : Source} {view : View} {before cs behind : Text} {span : Span}
    (hview : (View.of source).ofSpan span = .ok view)
    (hsource : source.text = before ++ (cs ++ behind)) (hstart : span.start = Text.width before)
    (hstop : span.stop = Text.width (before ++ cs)) : view.Shows before cs behind := by
  refine ⟨(View.within_of_ofSpan hview).source ▸ hsource, ?_, ?_⟩
  · rw [View.start, View.span_of_ofSpan hview, hstart]
  · rw [View.stop, View.span_of_ofSpan hview, hstop]

theorem Node.BecomeParts.of_nil {source : View} {parts : List Block}
    (h : Node.BecomeParts source [] parts) : parts = [] := by
  generalize hall : ([] : List Node) = all at h
  cases h with
  | nil => rfl
  | block => cases hall
  | run hne => exact absurd (List.append_eq_nil_iff.1 hall.symm).1 hne

/-- What is no text is a part of its own. -/
theorem Node.BecomeParts.of_block {source : View} {node : Node} {nodes : List Node}
    {parts : List Block} (h : Node.BecomeParts source (node :: nodes) parts)
    (hnode : node.isInline = false) : ∃ block rest, node.Becomes source block ∧
      Node.BecomeParts source nodes rest ∧ parts = block :: rest := by
  generalize hall : node :: nodes = all at h
  cases h with
  | nil => cases hall
  | block _ hblock hparts =>
    obtain ⟨rfl, rfl⟩ := List.cons.inj hall
    exact ⟨_, _, hblock, hparts, rfl⟩
  | run hne hinline =>
    obtain ⟨first, run, rfl⟩ := List.exists_cons_of_ne_nil hne
    obtain ⟨rfl, -⟩ := List.cons.inj hall
    rw [hinline node List.mem_cons_self] at hnode
    cases hnode

/-- In front of what is no text, a text is a part of its own. -/
theorem Node.BecomeParts.of_text {source : View} {span : Span} {nodes : List Node}
    {parts : List Block} (h : Node.BecomeParts source (.text span :: nodes) parts)
    (hnodes : ∀ node ∈ nodes, node.isInline = false) : ∃ view rest,
      source.ofSpan span = .ok view ∧ Node.BecomeParts source nodes rest ∧
      parts = .paragraph view :: rest := by
  generalize hall : Node.text span :: nodes = all at h
  cases h with
  | nil => cases hall
  | block hnode =>
    obtain ⟨rfl, -⟩ := List.cons.inj hall
    cases hnode
  | @run run rest hull view parts hne hinline hrest hhull hview hparts =>
    obtain ⟨node, run, rfl⟩ := List.exists_cons_of_ne_nil hne
    obtain ⟨rfl, hnext⟩ := List.cons.inj hall
    -- The text is all of its run.
    have hrun : run = [] := List.eq_nil_iff_forall_not_mem.2 fun node hnode => by
      have hnot := hnodes node (hnext ▸ List.mem_append_left rest hnode)
      rw [hinline node (List.mem_cons_of_mem _ hnode)] at hnot
      cases hnot
    subst hrun
    obtain rfl : nodes = rest := hnext
    obtain ⟨_, hstart, hstart'⟩ := hhull.start
    obtain ⟨_, hstop, hstop'⟩ := hhull.stop
    rw [List.mem_singleton.1 hstart] at hstart'
    rw [List.mem_singleton.1 hstop] at hstop'
    obtain ⟨start, stop⟩ := hull
    obtain rfl : span.start = start := hstart'
    obtain rfl : span.stop = stop := hstop'
    exact ⟨view, parts, hview, hparts, rfl⟩

/-- With the standard options a task marker is written as it is. -/
theorem FormatOptions.taskMarker_standard (item : Item) :
    ({} : FormatOptions).taskMarker item = item.task.map fun task => task.view.text := by
  rw [FormatOptions.taskMarker]
  cases item.task with
  | none => rfl
  | some task =>
    dsimp only
    rw [if_neg (by simp [Placement.unmarksComplete])]
    rfl

/-- A first paragraph behind the task marker is kept. -/
theorem Item.Keeps.eq_of_lt {task : Option Task} {first : View} {rest blocks : List Block}
    (h : Item.Keeps task (.paragraph first :: rest) blocks)
    (hlt : ∀ t ∈ task, t.view.start < first.start) : blocks = .paragraph first :: rest := by
  cases h with
  | behind ht hstart => exact absurd hstart (Nat.not_le.2 (hlt _ ht))
  | all => rfl

namespace Entry

variable {b : Char} {source : Source} {before behind : Text} {d : Nat}

theorem width_blanks (n : Nat) : Text.width (List.replicate n ' ') = n :=
  (View.width_eq_length fun c hc => by rw [List.eq_of_mem_replicate hc]; rfl).trans
    List.length_replicate

theorem width_front (hb : isBullet b) (d : Nat) (check : Option Check) (start : Nat) :
    start + Text.width (front b d check) = wordsStart check (start + 2 * d + 2) := by
  have hblanks := width_blanks (2 * d)
  have hbullet : b.utf8Size = 1 := by
    simp only [isBullet, Bool.or_eq_true, decide_eq_true_eq] at hb
    rcases hb with (rfl | rfl) | rfl <;> rfl
  have hspace : ' '.utf8Size = 1 := rfl
  cases check with
  | none =>
    rw [front, wordsStart, Text.width_append, hblanks, Text.width_cons, Text.width_cons, hbullet,
      hspace]
    rfl
  | some c =>
    rw [front, wordsStart, Text.width_append, hblanks, Text.width_cons, Text.width_cons, hbullet,
      hspace, Text.width_append, c.width_text]
    change _ = start + 2 * d + 2 + 4
    change start + (2 * d + (1 + (1 + (3 + 1)))) = _
    omega

variable {check : Option Check} {words : Words} {below entries : List Entry}

theorem isInline_nested (b : Char) (d s : Nat) (entries : List Entry) :
    ∀ node ∈ nested b d s entries, node.isInline = false := by
  cases entries with
  | nil => exact List.forall_mem_nil _
  | cons e entries => exact List.forall_mem_singleton.2 rfl

/-- The mark of an entry is the one that its item takes. -/
theorem mark_eq (b : Char) (d s : Nat) (check : Option Check) (words : Words) (s' : Nat)
    (below : List Entry) :
    (Node.ownTask? (inlines b d s check words ++ nested b (d + 1) s' below)).or
      (Node.leadTask? (inlines b d s check words ++ nested b (d + 1) s' below)) =
    check.map fun c => ⟨⟨s + 2 * d + 2, s + 2 * d + 2 + 3⟩, c.isDone⟩ := by
  cases check <;> cases below <;> rfl

/-- But for its mark, an entry has one text and what is below it. -/
theorem filter_inlines (b : Char) (d s : Nat) (check : Option Check) (words : Words) (s' : Nat)
    (below : List Entry) :
    (inlines b d s check words ++ nested b (d + 1) s' below).filter (!·.isTaskMark) =
      .text ⟨wordsStart check (s + 2 * d + 2), lineStop b d s check words⟩ ::
        nested b (d + 1) s' below := by
  cases check <;> cases below <;> rfl

theorem any_hasParagraph_nodes (b : Char) (d s : Nat) (entries : List Entry) :
    (nodes b d s entries).any Node.hasParagraph = false := by
  induction entries generalizing s with
  | nil => rfl
  | cons e entries ih =>
    obtain ⟨check, words, below⟩ := e
    rw [nodes, List.any_cons, ih, Bool.or_false, node]
    cases check <;> cases below <;> rfl

/-- The task of an entry with a task marker. -/
theorem task_eq {c : Check} (hb : isBullet b)
    (hsource : source.text = before ++ ((mk (some c) words below).text b d ++ behind)) {task : Task}
    (htask : TaskMark.task (.of source) ⟨⟨Text.width before + 2 * d + 2,
      Text.width before + 2 * d + 2 + 3⟩, c.isDone⟩ = .ok task) :
    task.view.text = c.text ∧ task.done = c.isDone ∧
      task.view.start = Text.width before + 2 * d + 2 := by
  obtain ⟨view, hview, htask⟩ := bind_eq_ok_iff.1 htask
  obtain rfl := Except.ok.inj htask
  have hfront := width_front hb d none (Text.width before)
  rw [← Text.width_append] at hfront
  have hshows : view.Shows (before ++ front b d none) c.text
      (' ' :: words.text ++ '\n' :: textOf b (d + 1) below ++ behind) := by
    refine View.shows_of_ofSpan hview ?_ hfront.symm ?_
    · rw [hsource, text, line, front, content]
      simp only [List.append_assoc, List.cons_append, List.nil_append]
    · rw [Text.width_append, hfront, c.width_text]
      rfl
  exact ⟨hshows.text_eq, rfl, hshows.start.trans hfront⟩

/-- The task marker of an entry stands in front of its words. -/
theorem task_start_lt (hb : isBullet b)
    (hsource : source.text = before ++ ((mk check words below).text b d ++ behind))
    {task : Option Task} (htask : IsTaskOf (.of source) (check.map fun c =>
      ⟨⟨Text.width before + 2 * d + 2, Text.width before + 2 * d + 2 + 3⟩, c.isDone⟩) task) :
    ∀ t ∈ task, t.view.start < wordsStart check (Text.width before + 2 * d + 2) := by
  intro t ht
  cases check with
  | none =>
    cases htask
    cases ht
  | some c =>
    cases htask with
    | some htask =>
      obtain rfl := Option.some.inj ht
      rw [(task_eq hb hsource htask).2.2]
      exact Nat.lt_add_of_pos_right (Nat.succ_pos 3)

/-- The item of an entry has the bullet and the task marker of the entry. -/
theorem hasFront (hb : isBullet b)
    (hsource : source.text = before ++ ((mk check words below).text b d ++ behind))
    {view : View} {task : Option Task} (column : Nat) (blocks : List Block)
    (hview : (View.of source).ofSpan ⟨Text.width before + 2 * d,
      Text.width before + Text.width ((mk check words below).text b d)⟩ = .ok view)
    (htask : IsTaskOf (.of source) (check.map fun c => ⟨⟨Text.width before + 2 * d + 2,
      Text.width before + 2 * d + 2 + 3⟩, c.isDone⟩) task) :
    Item.HasFront {} b ⟨view, Item.markerOf view, task, column, blocks⟩ check := by
  -- The item starts with its bullet.
  have htext : (mk check words below).text b d = List.replicate (2 * d) ' ' ++
      ([b] ++ (' ' :: content check words ++ '\n' :: textOf b (d + 1) below)) := by
    rw [text, line, List.append_assoc]
    rfl
  have hshows : view.Shows (before ++ List.replicate (2 * d) ' ')
      ([] ++ ([b] ++ (' ' :: content check words ++ '\n' :: textOf b (d + 1) below))) behind := by
    refine View.shows_of_ofSpan hview ?_ ?_ ?_
    · rw [hsource, htext]
      simp only [List.append_assoc, List.nil_append]
    · rw [Text.width_append, width_blanks]
    · rw [htext, List.nil_append, List.append_assoc, Text.width_append before]
  have hmarker := Item.shows_markerOf hshows (List.forall_mem_nil _) (isItemMarker_bullet hb)
  cases check with
  | none =>
    cases htask
    refine ⟨hmarker.text_eq, rfl, ?_⟩
    rintro t ⟨⟩
  | some c =>
    cases htask with
    | @some _ task htask =>
      obtain ⟨htext, hdone, -⟩ := task_eq hb hsource htask
      refine ⟨hmarker.text_eq, ?_, ?_⟩
      · rw [FormatOptions.taskMarker_standard]
        exact congrArg some htext
      · rintro t ht c' hc'
        obtain rfl := Option.some.inj ht
        obtain rfl := Option.some.inj hc'
        exact hdone

/-- Behind the line of an entry stand the entries below it. -/
theorem source_below
    (hsource : source.text = before ++ (textOf b d (mk check words below :: entries) ++ behind)) :
    source.text = (before ++ line b d check words ++ ['\n']) ++
      (textOf b (d + 1) below ++ (textOf b d entries ++ behind)) := by
  rw [hsource, textOf, text]
  simp only [List.append_assoc, List.cons_append, List.nil_append]

/-- What an item says that is read of an entry, and what is read below and behind the entry. -/
theorem exists_of_becomeItems (hb : isBullet b) {items : List Item}
    (hsource : source.text = before ++ (textOf b d (mk check words below :: entries) ++ behind))
    (h : Node.BecomeItems (.of source)
      (nodes b d (Text.width before) (mk check words below :: entries)) items) :
    ∃ item rest view blocks, items = item :: rest ∧ item.HasFront {} b check ∧
      item.children = .paragraph view :: blocks ∧ view.HasWords words ∧
      Node.BecomeParts (.of source)
        (nested b (d + 1) (Text.width (before ++ line b d check words ++ ['\n'])) below) blocks ∧
      Node.BecomeItems (.of source)
        (nodes b d (Text.width (before ++ (mk check words below).text b d)) entries) rest := by
  have hfirst : source.text =
      before ++ ((mk check words below).text b d ++ (textOf b d entries ++ behind)) := by
    rw [hsource, textOf, List.append_assoc]
  have hfront : source.text = (before ++ front b d check) ++ (words.text ++
      ('\n' :: (textOf b (d + 1) below ++ (textOf b d entries ++ behind)))) := by
    rw [source_below hsource, line_eq_front]
    simp only [List.append_assoc, List.cons_append, List.nil_append]
  cases h with
  | cons hview htask hparts hkeeps hitems =>
    rw [mark_eq] at htask
    rw [filter_inlines] at hparts
    obtain ⟨view, parts, hwords, hbelow, rfl⟩ := hparts.of_text (isInline_nested _ _ _ _)
    have hstart := width_front hb d check (Text.width before)
    have hstop : Text.width before + Text.width (line b d check words) =
        lineStop b d (Text.width before) check words := rfl
    have hshows : view.Shows (before ++ front b d check) words.text
        ('\n' :: (textOf b (d + 1) below ++ (textOf b d entries ++ behind))) := by
      refine View.shows_of_ofSpan hwords hfront ?_ ?_
      · rw [Text.width_append, hstart]
      · rw [List.append_assoc, ← line_eq_front, Text.width_append, hstop]
    obtain rfl := hkeeps.eq_of_lt fun t ht => by
      rw [hshows.start, Text.width_append, hstart]
      exact task_start_lt hb hfirst htask t ht
    have hnext : lineStop b d (Text.width before) check words + 1 =
        Text.width (before ++ line b d check words ++ ['\n']) := by
      rw [Text.width_append, Text.width_append, hstop]
      rfl
    rw [hnext] at hbelow
    rw [← Text.width_append] at hitems
    exact ⟨_, _, view, parts, rfl, hasFront hb hfirst _ _ hview htask, rfl,
      words.hasWords hshows, hbelow, hitems⟩

/-- What is below an entry is read as a list if there is any of it. -/
theorem outlined_of_becomeParts {parts : List Block}
    (hitems : ∀ items, Node.BecomeItems (.of source) (nodes b d (Text.width before) entries) items →
      Item.AllOutlinedAs {} b items entries)
    (h : Node.BecomeParts (.of source) (nested b d (Text.width before) entries) parts) :
    Block.OutlinedAs {} b parts entries := by
  cases entries with
  | nil =>
    rw [Node.BecomeParts.of_nil h]
    exact .nil
  | cons e entries =>
    obtain ⟨block, rest, hblock, hrest, rfl⟩ := h.of_block rfl
    obtain rfl := hrest.of_nil
    cases hblock with
    | list hview hlist =>
      have hloose := any_hasParagraph_nodes b d (Text.width before) (e :: entries)
      rw [nodes] at hloose
      rw [hloose]
      exact .list (hitems _ hlist)
    | leaf _ hlist => exact absurd rfl (hlist _)

/-- Entries are read as items that say what the entries say. -/
theorem outlined_of_becomeItems (hb : isBullet b) : ∀ (entries : List Entry) {before behind : Text}
    {d : Nat} {items : List Item}, source.text = before ++ (textOf b d entries ++ behind) →
    Node.BecomeItems (.of source) (nodes b d (Text.width before) entries) items →
    Item.AllOutlinedAs {} b items entries
  | [], _, _, _, _, _, h => by
    cases h
    exact .nil
  | .mk check words below :: entries, before, behind, d, items, hsource, h => by
    obtain ⟨item, rest, view, blocks, rfl, hfront, hchildren, hwords, hbelow, hrest⟩ :=
      exists_of_becomeItems hb hsource h
    have hbehind : source.text =
        (before ++ (mk check words below).text b d) ++ (textOf b d entries ++ behind) := by
      rw [hsource, textOf, List.append_assoc, List.append_assoc]
    have hparts := outlined_of_becomeParts
      (fun _ => outlined_of_becomeItems hb below (source_below hsource)) hbelow
    exact .cons (.mk hfront hchildren hwords hparts)
      (outlined_of_becomeItems hb entries hbehind hrest)

end Entry

/-- The document of an outline says what its entries say. -/
theorem Block.outlined_of_listOfView {b : Char} (hb : isBullet b) {entries : List Entry}
    {blocks : List Block}
    (h : Block.listOfView (View.of ⟨0, Entry.textOf b 0 entries⟩) = .ok blocks) :
    Block.OutlinedAs {} b blocks entries := by
  have hsource : (⟨0, Entry.textOf b 0 entries⟩ : Source).text =
      [] ++ (Entry.textOf b 0 entries ++ []) := (List.append_nil _).symm
  have hnests := (Markup.structureOf_regular ⟨0, Entry.textOf b 0 entries⟩).spaced.nests
  rw [Block.listOfView_of] at h
  have hbecomes := Node.forall₂_becomes hnests h
  rw [Markup.structureOf_textOf hb entries] at hbecomes
  cases entries with
  | nil =>
    cases hbecomes
    exact .nil
  | cons e entries =>
    cases hbecomes with
    | cons hblock hrest =>
      cases hrest
      exact Entry.outlined_of_becomeParts (fun _ => Entry.outlined_of_becomeItems hb _ hsource)
        (.block rfl hblock .nil)

/-! ## With all options -/

/-- A task marker in a case. -/
def Check.inCase (case : TaskCase) : Check → Check
  | .todo => .todo
  | .done upper =>
    match case with
    | .asIs => .done upper
    | .lowercase => .done false
    | .uppercase => .done true

theorem Check.text_inCase (case : TaskCase) (c : Check) :
    (c.inCase case).text = case.apply c.text := by
  rcases c with _ | _ | _ <;> cases case <;> decide

theorem Check.isDone_inCase (case : TaskCase) (c : Check) : (c.inCase case).isDone = c.isDone := by
  rcases c with _ | _ <;> cases case <;> rfl

variable {o : FormatOptions} {b : Char}

/-- With other options the task marker may be left out, or change its case. -/
theorem Item.HasFront.exists_hasFront {item : Item} {check : Option Check}
    (h : item.HasFront {} b check) (o : FormatOptions) : ∃ check', item.HasFront o b check' := by
  have htask := h.task
  rw [FormatOptions.taskMarker_standard] at htask
  cases hitem : item.task with
  | none =>
    refine ⟨none, h.marker, ?_, fun _ _ _ h => nomatch h⟩
    rw [FormatOptions.taskMarker, hitem]
    rfl
  | some task =>
    rw [hitem] at htask
    obtain ⟨c, hcheck, htext⟩ := Option.map_eq_some_iff.1 htask.symm
    have hdone : task.done = c.isDone := h.done task hitem c hcheck
    by_cases hmarks : (task.done && o.placement.unmarksComplete) = true
    · refine ⟨none, h.marker, ?_, fun _ _ _ h => nomatch h⟩
      rw [FormatOptions.taskMarker, hitem]
      exact if_pos hmarks
    · refine ⟨some (c.inCase o.taskCase), h.marker, ?_, fun t ht c' hc' => ?_⟩
      · rw [FormatOptions.taskMarker, hitem, Option.map_some, c.text_inCase, htext]
        exact if_neg hmarks
      · obtain rfl := Option.some.inj (hitem.symm.trans ht)
        obtain rfl := Option.some.inj hc'
        rw [hdone, c.isDone_inCase]

theorem Item.AllOutlinedAs.length_eq {items : List Item} {entries : List Entry}
    (h : Item.AllOutlinedAs o b items entries) : items.length = entries.length := by
  induction items generalizing entries with
  | nil =>
    cases h
    rfl
  | cons item items ih =>
    cases h with
    | cons _ hitems => exact congrArg (· + 1) (ih hitems)

theorem Item.AllOutlinedAs.exists_of_forall {items : List Item}
    (h : ∀ item ∈ items, ∃ e, Item.OutlinedAs o b item e) :
    ∃ entries, Item.AllOutlinedAs o b items entries := by
  induction items with
  | nil => exact ⟨[], .nil⟩
  | cons item items ih =>
    obtain ⟨hitem, hitems⟩ := List.forall_mem_cons.1 h
    obtain ⟨e, he⟩ := hitem
    obtain ⟨entries, hentries⟩ := ih hitems
    exact ⟨e :: entries, .cons he hentries⟩

mutual

/-- An item that says what an entry says is outlined as some entry with all other options. -/
theorem Item.OutlinedAs.exists_outlined (o : FormatOptions) : ∀ {item : Item} {e : Entry},
    Item.OutlinedAs {} b item e → ∃ e', Item.OutlinedAs o b item e'
  | _, _, .mk hfront hchildren hwords hbelow => by
    obtain ⟨check, hfront⟩ := hfront.exists_hasFront o
    obtain ⟨below, hbelow⟩ := hbelow.exists_outlined o
    exact ⟨_, .mk hfront hchildren hwords hbelow⟩

theorem Item.AllOutlinedAs.exists_outlined (o : FormatOptions) : ∀ {items : List Item}
    {entries : List Entry}, Item.AllOutlinedAs {} b items entries →
    ∀ item ∈ items, ∃ e, Item.OutlinedAs o b item e
  | _, _, .nil => List.forall_mem_nil _
  | _, _, .cons hitem hitems =>
    List.forall_mem_cons.2 ⟨hitem.exists_outlined o, hitems.exists_outlined o⟩

theorem Block.OutlinedAs.exists_outlined (o : FormatOptions) : ∀ {blocks : List Block}
    {entries : List Entry}, Block.OutlinedAs {} b blocks entries →
    ∃ entries', Block.OutlinedAs o b blocks entries'
  | _, _, .nil => ⟨[], .nil⟩
  | _, _, @Block.OutlinedAs.list _ _ _ items _ _ hitems => by
    have hitems : Item.AllOutlinedAs {} b items _ := hitems
    have hall := hitems.exists_outlined o
    have hperm := o.arranged_perm id items
    obtain ⟨entries, hentries⟩ := Item.AllOutlinedAs.exists_of_forall fun item hitem =>
      hall item (hperm.mem_iff.1 hitem)
    -- There are as many entries as before.
    have hlength : 0 < entries.length := by
      rw [← hentries.length_eq, hperm.length_eq, hitems.length_eq]
      exact Nat.succ_pos _
    obtain ⟨e, entries, rfl⟩ := List.exists_cons_of_length_pos hlength
    exact ⟨_, .list hentries⟩

end

/-! ## What is written -/

/-- The writer is ready for the entries at a depth. -/
structure Writer.Calm (w : Writer) (d : Nat) : Prop where
  leads : w.leads = List.replicate d ⟨none, [' ', ' ']⟩
  pending : w.pending = []
  runDepth : w.runDepth = 0
  trailingBlanks : w.trailingBlanks = 0

/-- The script writes a text among the entries at a depth. -/
def Script.WritesAt (script : Script) (d : Nat) (text : Text) : Prop := ∀ w : Writer, w.Calm d →
  (w.run script).Calm d ∧ (w.run script).text = w.text ++ text

theorem Script.WritesAt.nil (d : Nat) : Script.WritesAt [] d [] :=
  fun _ h => ⟨h, (List.append_nil _).symm⟩

theorem Script.WritesAt.append {script script' : Script} {d : Nat} {text text' : Text}
    (h : script.WritesAt d text) (h' : Script.WritesAt script' d text') :
    Script.WritesAt (script ++ script') d (text ++ text') := by
  intro w hw
  obtain ⟨hcalm, htext⟩ := h w hw
  obtain ⟨hcalm', htext'⟩ := h' _ hcalm
  rw [Writer.run_append]
  exact ⟨hcalm', by rw [htext', htext, List.append_assoc]⟩

theorem Words.newline_not_mem (words : Words) : '\n' ∉ words.text :=
  fun h => (words.clean _ h).1 rfl

theorem Writer.flatMap_form_replicate (d : Nat) (content : Bool) :
    (List.replicate d (⟨none, [' ', ' ']⟩ : Lead)).flatMap (Lead.form content) =
      List.replicate (2 * d) ' ' := by
  induction d with
  | zero => rfl
  | succ d ih =>
    rw [List.replicate_succ, List.flatMap_cons, ih]
    cases content <;> rfl

/-- What is done for an entry up to the end of its line. -/
def Entry.opening (b : Char) (check : Option Check) (words : Words) : Script :=
  [.pushLeadFirst (Entry.front b 0 check) [' ', ' '], .append words.text, .line]

/-- What is done for an entry, given the script for what is below it. -/
def Entry.script (b : Char) (check : Option Check) (words : Words) (below : Script) : Script :=
  Entry.opening b check words ++ below ++ [.line, .popLead]

/-- The line of an entry is written with the indentation of its depth, its bullet and its task
    marker. -/
theorem Writer.Calm.opening {w : Writer} {d : Nat} (h : w.Calm d) (b : Char)
    (check : Option Check) (words : Words) :
    (w.run (Entry.opening b check words)).Calm (d + 1) ∧
      (w.run (Entry.opening b check words)).text =
        w.text ++ (Entry.line b d check words ++ ['\n']) := by
  obtain ⟨x, cs, htext, -⟩ := words.exists_cons
  let w' : Writer := { w with
    leads := w.leads ++ [⟨some (Entry.front b 0 check), [' ', ' ']⟩]
    pending := words.text }
  have hrun : w.run (Entry.opening b check words) = w'.endLine := by
    change ((w.pushLeadFirst _ _).append words.text).line = _
    rw [append_of_not_mem words.newline_not_mem]
    change Writer.line { w' with pending := w.pending ++ words.text } = _
    rw [h.pending, List.nil_append, line, if_neg (by rw [htext]; exact Bool.false_ne_true)]
  have hcontent : w'.hasContent = true := by
    rw [hasContent, show w'.pending = words.text from rfl, words.isBlank_eq]
    rfl
  have hleads : w'.leads =
      List.replicate d ⟨none, [' ', ' ']⟩ ++ [⟨some (Entry.front b 0 check), [' ', ' ']⟩] :=
    congrArg (· ++ _) h.leads
  have hlead : w'.nextLine.lead = Entry.front b d check := by
    have hnonempty : w'.pending.isEmpty = false := congrArg List.isEmpty htext
    rw [nextLine, hcontent, hnonempty]
    change w'.leads.flatMap (Lead.form true) = _
    rw [hleads, List.flatMap_append, flatMap_form_replicate]
    exact congrArg (_ ++ ·) (List.append_nil _)
  have hline : w'.nextLine.chars = Entry.line b d check words ++ ['\n'] := by
    rw [WrittenLine.chars, hlead, Entry.line_eq_front]
    change _ ++ (if w'.hasContent then words.text else []) ++ _ = _
    rw [hcontent]
    rfl
  rw [hrun]
  refine ⟨⟨?_, rfl, h.runDepth, ?_⟩, ?_⟩
  · change w'.leads.map (Lead.used w'.hasContent) = _
    rw [hcontent, hleads, List.map_append, List.map_replicate]
    exact List.replicate_succ'.symm
  · change (if w'.hasContent then 0 else _) = 0
    rw [hcontent]
    rfl
  · rw [text_endLine, hline]
    rfl

/-- An entry is written if what is below it is written one level deeper. -/
theorem Script.WritesAt.entry {below : Script} {d : Nat} {text : Text}
    (h : below.WritesAt (d + 1) text) (b : Char) (check : Option Check) (words : Words) :
    (Entry.script b check words below).WritesAt d (Entry.line b d check words ++ '\n' :: text) := by
  intro w hw
  obtain ⟨hline, htext⟩ := hw.opening b check words
  obtain ⟨hbelow, htext'⟩ := h _ hline
  have hend : w.run (Entry.script b check words below) =
      ((w.run (Entry.opening b check words)).run below).popLead := by
    rw [Entry.script, Writer.run_append, Writer.run_append]
    exact congrArg Writer.popLead (Writer.line_of_pending hbelow.pending)
  rw [hend]
  refine ⟨⟨?_, hbelow.pending, hbelow.runDepth, hbelow.trailingBlanks⟩, ?_⟩
  · change List.dropLast _ = _
    rw [hbelow.leads, List.dropLast_replicate, Nat.add_sub_cancel]
  · change Writer.text (Writer.run _ below) = _
    rw [htext', htext, List.append_assoc, List.append_assoc]
    rfl

theorem Item.HasFront.script_eq {item : Item} {check : Option Check} (h : item.HasFront o b check)
    (hb : isBullet b) (hcontent : item.children.all Block.isEmpty = false) (ordinal : Nat)
    (words : Words) (below : Script) :
    item.script o none ordinal (.append words.text :: .line :: below) =
      Entry.script b check words below := by
  have hmarker : item.newMarker none ordinal = [b] := h.marker
  have hwidth : Text.width [b] = 1 := (isItemMarker_bullet hb).width_eq_length
  rw [Item.script, hmarker, h.task, hcontent, hwidth]
  cases check <;> rfl

/-- The words of an item are written, then what is below them. -/
theorem View.HasWords.exists_below {view : View} {words : Words} (h : view.HasWords words)
    {blocks : List Block} {indent : Nat} {script : Script}
    (hscript : Block.scriptOfBlocks o indent false false (.paragraph view :: blocks) = .ok script) :
    ∃ below, Block.scriptOfBlocks o indent false true blocks = .ok below ∧
      script = .append words.text :: .line :: below := by
  rw [Block.scriptOfBlocks, Block.script, h.textLines] at hscript
  obtain ⟨own, hown, hscript⟩ := bind_eq_ok_iff.1 hscript
  obtain ⟨below, hbelow, hscript⟩ := bind_eq_ok_iff.1 hscript
  obtain rfl := Except.ok.inj hown
  obtain rfl := Except.ok.inj hscript
  exact ⟨below, hbelow, rfl⟩

mutual

/-- Items that are outlined as entries are written as the entries. -/
theorem Item.AllOutlinedAs.writesAt (hb : isBullet b) :
    ∀ {items : List Item} {entries : List Entry}, Item.AllOutlinedAs o b items entries →
    ∀ {bodies : List (Item × Script)}, Item.withBodies o false items = .ok bodies → ∀ ordinal d,
    (Item.scriptOfList o none false ordinal bodies).WritesAt d (Entry.textOf b d entries)
  | _, _, .nil, bodies, h, ordinal, d => by
    obtain rfl := Except.ok.inj h
    exact .nil d
  | _, _, .cons (@Item.OutlinedAs.mk _ _ _ _ _ check words _ hfront hchildren hwords hbelow) hitems,
      bodies, h, ordinal, d => by
    obtain ⟨hmap, hall⟩ := Item.withBodies_eq_ok_iff.1 h
    obtain ⟨⟨item, body⟩, rest, rfl, rfl, hrest⟩ := List.map_eq_cons_iff.1 hmap
    obtain ⟨hbody, hbodies⟩ := List.forall_mem_cons.1 hall
    have hbody : Block.scriptOfBlocks o item.contentColumn false false item.children = .ok body :=
      hbody
    rw [hchildren] at hbody
    obtain ⟨below, hscript, rfl⟩ := hwords.exists_below hbody
    have hcontent : item.children.all Block.isEmpty = false := by
      rw [hchildren, List.all_cons, Block.isEmpty, hwords.isEmpty, Bool.false_and]
    have hitem := (hbelow.writesAt hb rfl hscript (d + 1)).entry b check words
    have hrest := hitems.writesAt hb (Item.withBodies_eq_ok_iff.2 ⟨hrest, hbodies⟩) (ordinal + 1) d
    rw [Item.scriptOfList, hfront.script_eq hb hcontent, Bool.and_false, Entry.textOf, Entry.text]
    exact hitem.append hrest

/-- Blocks below the text of an item are written one level deeper. -/
theorem Block.OutlinedAs.writesAt (hb : isBullet b) :
    ∀ {blocks : List Block} {entries : List Entry}, Block.OutlinedAs o b blocks entries →
    ∀ {script : Script} {indent : Nat} {separated behind : Bool}, (behind && separated) = false →
    Block.scriptOfBlocks o indent separated behind blocks = .ok script → ∀ d,
    script.WritesAt d (Entry.textOf b d entries)
  | _, _, .nil, script, indent, separated, behind, hgap, h, d => by
    obtain rfl := Except.ok.inj h
    exact .nil d
  | _, _, @Block.OutlinedAs.list _ _ view items _ _ hitems, script, indent, separated, behind, hgap,
      h, d => by
    obtain ⟨bodies, hbodies⟩ := Item.exists_withBodies o false (o.arranged id items)
    have hlist : Block.scriptOfBlocks o indent separated behind [.list view none false items] =
        .ok (Item.scriptOfList o none false 0 bodies) := by
      rw [Block.scriptOfBlocks, Block.script_list hbodies, hgap]
      exact congrArg Except.ok (List.append_nil _)
    obtain rfl := Except.ok.inj (hlist.symm.trans h)
    exact hitems.writesAt hb hbodies 0 d

end

/-! ## What is read again -/

/-- The task marker that an item is written with is read as the task marker of an item. -/
theorem Item.HasFront.writtenAs {item again : Item} {check : Option Check}
    (h : item.HasFront o b check) (hagain : again.HasFront {} b check) (ordinal : Nat) :
    item.WrittenAs o none ordinal again := by
  refine ⟨hagain.marker.trans h.marker.symm, ?_, nofun⟩
  have htask := hagain.task
  rw [FormatOptions.taskMarker_standard] at htask
  rw [h.task]
  cases check with
  | none => rw [Option.map_eq_none_iff.1 htask, Option.map_none, Option.map_none, Option.map_none]
  | some c =>
    obtain ⟨t, ht, htext⟩ := Option.map_eq_some_iff.1 htask
    obtain ⟨t', ht'⟩ : ∃ t', item.task = some t' := by
      have hmarker := h.task
      rw [FormatOptions.taskMarker] at hmarker
      cases hitem : item.task with
      | none =>
        rw [hitem] at hmarker
        cases hmarker
      | some t' => exact ⟨t', rfl⟩
    rw [ht, Item.isComplete, ht', Option.map_some, Option.map_some, Option.map_some, htext,
      Option.any_some, hagain.done t ht c rfl, h.done t' ht' c rfl]

mutual

/-- Items that are written as entries are read as items that say what the entries say. -/
theorem Item.AllOutlinedAs.reread : ∀ {items : List Item} {entries : List Entry} {again : List Item}
    {ordinal : Nat}, Item.AllOutlinedAs o b items entries → Item.AllOutlinedAs {} b again entries →
    Item.AllReread o none ordinal items again
  | _, _, _, _, .nil, .nil => .nil
  | _, _, _, _, .cons (.mk hfront hchildren hwords hbelow) hitems,
      .cons (.mk hfront' hchildren' hwords' hbelow') hitems' => by
    refine .item (hfront.writtenAs hfront' _) ?_ (hitems.reread hitems')
    rw [hchildren, hchildren']
    exact .cons (.paragraph (hwords'.textLines.trans hwords.textLines.symm)
      (hwords'.isEmpty.trans hwords.isEmpty.symm)) (hbelow.reread hbelow')

theorem Block.OutlinedAs.reread :
    ∀ {blocks : List Block} {entries : List Entry} {again : List Block} {indent indent' : Nat},
    Block.OutlinedAs o b blocks entries → Block.OutlinedAs {} b again entries →
    Block.AllReread o indent indent' blocks again
  | _, _, _, _, _, .nil, .nil => .nil
  | _, _, _, _, _, .list hitems, .list hitems' => .cons (.list (hitems.reread hitems')) .nil

end

/-! ## Formatting -/

theorem Writer.Calm.text_finish {w : Writer} {d : Nat} (h : w.Calm d) : w.finish.text = w.text := by
  rw [Writer.finish, Writer.line_of_pending h.pending]
  change (w.ended.drop w.trailingBlanks).reverse.flatMap WrittenLine.chars = _
  rw [h.trailingBlanks, List.drop_zero]
  rfl

/-- What is written of an outline is an outline, and formatting it again gives the same output. -/
theorem FormatOptions.format_outline (o : FormatOptions) {b : Char} (hb : isBullet b)
    (entries : List Entry) (hsize : Text.width (Entry.textOf b 0 entries) < 268435456) :
    ∃ f again, o.format (Entry.textOf b 0 entries) = .ok f ∧ f.text = Entry.textOf b 0 again ∧
      o.format f.text = .ok f := by
  have hruns := (Markup.structureOf_regular ⟨0, Entry.textOf b 0 entries⟩).runsInRange hsize o
  obtain ⟨blocks, script, f, hbuilt, hscript, hformat, htext⟩ := hruns.exists_format
  obtain ⟨again, hagain⟩ := (Block.outlined_of_listOfView hb hbuilt).exists_outlined o
  have hnew : ({ maxBlankLines := o.maxBlankLines } : Writer).Calm 0 := ⟨rfl, rfl, rfl, rfl⟩
  obtain ⟨hcalm, hwritten⟩ := hagain.writesAt hb rfl hscript 0 _ hnew
  have houtput : f.text = Entry.textOf b 0 again := by
    rw [htext, hcalm.text_finish, hwritten]
    rfl
  -- The output is an outline, and so it is read as what has been written.
  have hregular := Markup.structureOf_regular ⟨0, f.text⟩
  obtain ⟨blocks', hbuilt'⟩ :=
    @Block.exists_listOfNodes (.of ⟨0, f.text⟩) _ none hregular.admitted nofun
  rw [← Block.listOfView_of, houtput] at hbuilt'
  have hreread : Block.AllReread o 0 0 blocks blocks' :=
    hagain.reread (Block.outlined_of_listOfView hb hbuilt')
  refine ⟨f, again, hformat, houtput, ?_⟩
  rw [houtput, o.format_eq hbuilt', hreread.record_eq, ← o.format_eq hbuilt]
  exact hformat

end Taskdown
