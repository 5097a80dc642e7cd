import Taskdown.Proofs.Markup.Cursor
import Taskdown.Proofs.Markup.Frames

/-!
# What a reader holds

Between two lines, a reader holds what has been read up to the end of the first one
(`Reader.Reads`): the finished nodes and the open containers, and an open leaf block that fits
behind them, wherever it will end (`Leaf.Fits`). Within a line there is no open leaf block
(`Reader.Stands`), and the innermost container takes in the next block (`Reader.Settled`).

An item whose first line has nothing but blanks may still end with that line when others have been
read. All open containers start before that place, which the reader has kept (`Reader.emptyItem`).

* `Reader.Reads.closeLeaf`, `Reader.Settled.emit`, `Reader.Settled.open`: leaf blocks are closed and
  opened;
* `Reader.Stands.popMany`: containers are closed;
* `Reader.Stands.finishList`, `Reader.Stands.openItem`: the list at hand is closed, or goes on with
  an item.
-/

namespace Taskdown.Markup

/-! ## The text of a paragraph -/

theorem isLineBlank_of_isSpaceTab {c : Char} (h : Text.isSpaceTab c) : isLineBlank c := by
  simp only [Text.isSpaceTab, Bool.or_eq_true, decide_eq_true_eq] at h
  rcases h with rfl | rfl <;> rfl

theorem isLineBlank_of_isPunctuation {c : Char} (h : Text.isPunctuation c) :
    isLineBlank c = false := by
  by_contra hblank
  rw [Bool.not_eq_false, isLineBlank, Bool.or_eq_true, Bool.or_eq_true, Bool.or_eq_true] at hblank
  simp only [decide_eq_true_eq] at hblank
  rcases hblank with ((rfl | rfl) | rfl) | rfl <;> exact absurd h (by decide)

/-- A text that is not blank has a character that is not. -/
theorem exists_of_isBlankLine {cs : Text} (h : isBlankLine cs = false) :
    ∃ front x rest, cs = front ++ x :: rest ∧ isLineBlank x = false := by
  obtain ⟨x, hx, hblank⟩ := List.all_eq_false.1 h
  obtain ⟨front, rest, rfl⟩ := List.append_of_mem hx
  exact ⟨front, x, rest, rfl, Bool.not_eq_true _ ▸ hblank⟩

section

variable {cs front : Text} {l : SourceLine} {c : LineCursor}

/-- The text on a line ends behind its last character that is not blank. -/
theorem exists_textStop (l : SourceLine) : ∃ text blanks, l.body = text ++ blanks ∧
    Reader.textStop l = l.start + Text.width text ∧ ∀ x ∈ blanks, isLineBlank x := by
  have hbody :=
    congrArg List.reverse (List.takeWhile_append_dropWhile (p := isLineBlank) (l := l.body.reverse))
  rw [List.reverse_append, List.reverse_reverse] at hbody
  have hblank : ∀ x ∈ (l.body.reverse.takeWhile isLineBlank).reverse, isLineBlank x :=
    fun x hx => List.mem_takeWhile_imp (List.mem_reverse.1 hx)
  have hlength : (l.body.reverse.takeWhile isLineBlank).length =
      Text.width (l.body.reverse.takeWhile isLineBlank).reverse := by
    rw [Text.width_eq_length_of_forall fun x hx => utf8Size_of_isLineBlank (hblank x hx),
      List.length_reverse]
  have hwidth := congrArg Text.width hbody
  rw [Text.width_append] at hwidth
  refine ⟨_, _, hbody.symm, ?_, hblank⟩
  rw [Reader.textStop, hlength, SourceLine.bodyStop, ← hwidth, ← Nat.add_assoc, Nat.add_sub_cancel]

theorem isBoundary_textStop (hl : l.In cs) : Text.isBoundary cs (Reader.textStop l) := by
  obtain ⟨text, blanks, hbody, hstop, -⟩ := exists_textStop l
  exact hstop ▸ hl.isBoundary hbody

theorem le_textStop (l : SourceLine) : l.start ≤ Reader.textStop l := by
  obtain ⟨text, blanks, -, hstop, -⟩ := exists_textStop l
  exact hstop ▸ Nat.le_add_right _ _

theorem textStop_le (hl : l.In cs) : Reader.textStop l ≤ l.stop :=
  Nat.le_trans (Nat.sub_le _ _) hl.bodyStop_le

/-- A character that is not blank is before the end of the text. -/
theorem lt_textStop {x : Char} {rest : Text} (hbody : l.body = front ++ x :: rest)
    (hx : isLineBlank x = false) : l.start + Text.width front < Reader.textStop l := by
  obtain ⟨text, blanks, hbody', hstop, hblank⟩ := exists_textStop l
  have hpos := Char.utf8Size_pos x
  rw [hbody, List.append_cons] at hbody'
  rcases List.append_eq_append_iff.1 hbody' with ⟨more, rfl, -⟩ | ⟨more, hmore, rfl⟩
  · rw [hstop, Text.width_append, Text.width_append, Text.width_cons]
    omega
  · rcases List.eq_nil_or_concat more with rfl | ⟨more, y, rfl⟩
    · rw [hstop, ← List.append_nil text, ← hmore, Text.width_append, Text.width_cons]
      omega
    · -- The character would be one of the blanks at the end.
      have hy : x = y := by
        have := congrArg List.getLast? hmore
        rw [List.getLast?_concat, List.concat_eq_append, ← List.append_assoc, List.getLast?_concat]
          at this
        exact Option.some.inj this
      rw [hy, hblank y (List.mem_append_left _ (by simp))] at hx
      cases hx

/-- The text of a paragraph starts and ends within its line. -/
theorem textStart_spec (hl : l.In cs) (h : c.At l front) (hblank : isBlankLine c.rest = false) :
    c.offset ≤ Reader.textStart c ∧ Reader.textStart c < Reader.textStop l ∧
      Text.isBoundary cs (Reader.textStart c) := by
  have hplain : c.offset < Reader.textStop l := by
    obtain ⟨blanks, x, rest, hrest, hx⟩ := exists_of_isBlankLine hblank
    have hbody : l.body = (front ++ blanks) ++ x :: rest := by rw [h.body, hrest, List.append_assoc]
    have hlt := lt_textStop hbody hx
    rw [Text.width_append] at hlt
    rw [h.offset]
    omega
  rw [Reader.textStart]
  split
  · next d rest hrest =>
    split
    · next hd =>
      have hbody : l.body = (front ++ ['\\']) ++ d :: rest := by
        rw [h.body, hrest, List.append_assoc]
        rfl
      have hoffset : c.offset + 1 = l.start + Text.width (front ++ ['\\']) := by
        rw [Text.width_append, ← Nat.add_assoc, ← h.offset]
        rfl
      refine ⟨Nat.le_succ _, ?_, ?_⟩
      · rw [hoffset]
        exact lt_textStop hbody (isLineBlank_of_isPunctuation hd)
      · rw [hoffset]
        exact hl.isBoundary hbody
    · exact ⟨Nat.le_refl _, hplain, h.isBoundary hl⟩
  · exact ⟨Nat.le_refl _, hplain, h.isBoundary hl⟩

end

/-! ## Leaf blocks -/

/-- An open leaf block fits behind what has been read up to `p`, wherever it ends after `pos`. -/
inductive Leaf.Fits (source : Source) (p pos : Nat) : Leaf → Prop
  | paragraph {start : Nat} {task : List Node} {content : Span} : p ≤ start → start < pos →
      Text.isBoundary source.text start →
      (∀ node ∈ task, node.Within source ∧ ∃ span done, node = .task span done) →
      start ≤ content.start → content.start < content.stop → content.stop ≤ pos →
      Text.isBoundary source.text content.start → Text.isBoundary source.text content.stop →
      Leaf.Fits source p pos (.paragraph start task content)
  | fenced {start indent : Nat} {fence : Fence} : p ≤ start → start < pos →
      Text.isBoundary source.text start → fence.mark.utf8Size = 1 →
      Leaf.Fits source p pos (.fenced start fence indent)
  | indented {span : Span} : p ≤ span.start → span.start < span.stop → span.stop ≤ pos →
      Text.isBoundary source.text span.start → Text.isBoundary source.text span.stop →
      Leaf.Fits source p pos (.indented span)
  | html {start : Nat} {stop : HtmlEnd} : p ≤ start → start < pos →
      Text.isBoundary source.text start → Leaf.Fits source p pos (.html start stop)
  | table {start : Nat} : p ≤ start → start < pos → Text.isBoundary source.text start →
      Leaf.Fits source p pos (.table start)

namespace Leaf.Fits

variable {source : Source} {p pos pos' stop : Nat} {leaf : Leaf}

theorem mono (h : leaf.Fits source p pos) (hpos : pos ≤ pos') : leaf.Fits source p pos' := by
  cases h with
  | paragraph h1 h2 h3 h4 h5 h6 h7 h8 h9 =>
    exact .paragraph h1 (Nat.lt_of_lt_of_le h2 hpos) h3 h4 h5 h6 (Nat.le_trans h7 hpos) h8 h9
  | fenced h1 h2 h3 h4 => exact .fenced h1 (Nat.lt_of_lt_of_le h2 hpos) h3 h4
  | indented h1 h2 h3 h4 h5 => exact .indented h1 h2 (Nat.le_trans h3 hpos) h4 h5
  | html h1 h2 h3 => exact .html h1 (Nat.lt_of_lt_of_le h2 hpos) h3
  | table h1 h2 h3 => exact .table h1 (Nat.lt_of_lt_of_le h2 hpos) h3

/-- The task marker and the text of a paragraph. -/
theorem within_content {start : Nat} {task : List Node} {content : Span}
    (h : (Leaf.paragraph start task content).Fits source p pos) :
    ∀ node ∈ task ++ [.text content], node.Within source := by
  cases h with
  | paragraph _ _ _ htask _ hlt _ hstart hstop =>
    exact List.forall_mem_append.2 ⟨fun node hnode => (htask node hnode).1,
      List.forall_mem_singleton.2
        (Node.within_text (View.admits_of (Nat.le_of_lt hlt) hstart hstop))⟩

/-- The walk passes over the task marker of a paragraph. -/
theorem spaced_content {start : Nat} {task : List Node} {content : Span}
    (h : (Leaf.paragraph start task content).Fits source p pos) (hpos : pos ≤ stop) :
    Node.SpacedAll source.text start (task ++ [.text content]) stop := by
  cases h with
  | paragraph _ _ _ htask hle hlt hstop =>
    have htext : Node.SpacedAll source.text start [.text content] stop :=
      .cons (.text hle hlt) (.nil (Nat.le_trans hstop hpos))
    clear hle
    induction task with
    | nil => exact htext
    | cons node task ih =>
      obtain ⟨hnode, hrest⟩ := List.forall_mem_cons.1 htask
      obtain ⟨-, span, done, rfl⟩ := hnode
      exact .cons .task (ih hrest)

/-- Wherever the block ends, it is a node behind what has been read before. -/
theorem node (h : leaf.Fits source p pos) (hpos : pos ≤ stop)
    (hstop : Text.isBoundary source.text stop) :
    (leaf.node stop).Within source ∧ ∃ q, q ≤ stop ∧
    Node.Spaced source.text p (leaf.node stop) q := by
  cases h with
  | paragraph hp hlt hstart htask hle hcontent hcontentStop hcontentStart hcontentBoundary =>
    have h : (Leaf.paragraph _ _ _).Fits source p pos :=
      .paragraph hp hlt hstart htask hle hcontent hcontentStop hcontentStart hcontentBoundary
    exact ⟨Node.within_block (View.admits_of (Nat.le_of_lt (Nat.lt_of_lt_of_le hlt hpos)) hstart
      hstop) h.within_content, stop, Nat.le_refl _, .paragraph hp (Nat.lt_of_lt_of_le hlt hpos)
        (h.spaced_content hpos)⟩
  | fenced hp hlt hstart =>
    have hlt := Nat.lt_of_lt_of_le hlt hpos
    exact ⟨Node.within_block (View.admits_of (Nat.le_of_lt hlt) hstart hstop)
      (List.forall_mem_nil _), stop, Nat.le_refl _, .of_tag (.inr (.inl rfl)) hp hlt⟩
  | html hp hlt hstart | table hp hlt hstart =>
    have hlt := Nat.lt_of_lt_of_le hlt hpos
    exact ⟨Node.within_block (View.admits_of (Nat.le_of_lt hlt) hstart hstop)
      (List.forall_mem_nil _), stop, Nat.le_refl _, .of_tag (.inr (.inr rfl)) hp hlt⟩
  | indented hp hlt hle hstart hstop' =>
    exact ⟨Node.within_block (View.admits_of (Nat.le_of_lt hlt) hstart hstop')
      (List.forall_mem_nil _), _, Nat.le_trans hle hpos, .of_tag (.inr (.inl rfl)) hp hlt⟩

/-- A paragraph may end as a heading. -/
theorem heading {start : Nat} {task : List Node} {content : Span}
    (h : (Leaf.paragraph start task content).Fits source p pos) (hpos : pos ≤ stop)
    (hstop : Text.isBoundary source.text stop) :
    (Node.block .heading ⟨start, stop⟩ (task ++ [.text content])).Within source ∧
      ∃ q, q ≤ stop ∧ Node.Spaced source.text p
        (.block .heading ⟨start, stop⟩ (task ++ [.text content])) q := by
  have hcontent := h.within_content
  cases h with
  | paragraph hp hlt hstart =>
    have hlt := Nat.lt_of_lt_of_le hlt hpos
    exact ⟨Node.within_block (View.admits_of (Nat.le_of_lt hlt) hstart hstop) hcontent,
      stop, Nat.le_refl _, .of_tag (.inl rfl) hp hlt⟩

end Leaf.Fits

/-! ## Readers -/

theorem noList_cons {f : Frame} {frames : List Frame}
    (h : ∀ mark number tight, f.container ≠ .list mark number tight) : NoList (f :: frames) := by
  intro g hg
  obtain rfl := Option.some.inj hg
  exact h

theorem NoList.alike {frames frames' : List Frame} (h : NoList frames)
    (ha : List.Forall₂ Frame.Alike frames frames') : NoList frames' := by
  cases ha with
  | nil => exact h
  | cons ha _ =>
    have h := h _ rfl
    refine noList_cons fun mark number tight => ?_
    cases ha with
    | refl => exact h mark number tight
    | list => exact absurd rfl (h _ _ _)
    | item => exact nofun

theorem alike_self (frames : List Frame) : List.Forall₂ Frame.Alike frames frames :=
  List.forall₂_same.2 fun f _ => .refl f

namespace Reader

section

variable {r : Reader} {f : Frame} {frames : List Frame} {node : Node} {stop : Nat}

theorem leaf_emit (r : Reader) (node : Node) : (r.emit node).leaf = r.leaf := by
  rw [emit]
  split <;> rfl

theorem emptyItem_emit (r : Reader) (node : Node) : (r.emit node).emptyItem = r.emptyItem := by
  rw [emit]
  split <;> rfl

theorem containers_emit (r : Reader) (node : Node) : (r.emit node).containers = r.containers := by
  rw [emit]
  split
  · rfl
  · next h =>
      rw [containers, containers, h, List.reverse_cons, List.reverse_cons, List.map_append,
        List.map_append]; rfl

theorem noList_emit (h : NoList r.frames) : NoList (r.emit node).frames := by
  rw [emit]
  split
  · next hnil =>
    rw [hnil] at h
    exact hnil.symm ▸ h
  · next hcons =>
    rw [hcons] at h
    have h := h _ rfl
    exact noList_cons h

theorem leaf_pop (r : Reader) (stop : Nat) : (r.pop stop).leaf = r.leaf := by
  rw [pop]
  split
  · rfl
  · rw [leaf_emit]

theorem containers_pop (h : r.frames = f :: frames) (stop : Nat) :
    (r.pop stop).containers = frames.reverse.map Frame.container := by
  obtain ⟨emptyItem, -, hpop⟩ := exists_pop h stop
  rw [hpop, containers_emit]
  rfl

/-- Closing containers forgets the empty item, or keeps it. -/
theorem mem_emptyItem_of_pop {e : Nat} (h : e ∈ (r.pop stop).emptyItem) : e ∈ r.emptyItem := by
  cases hframes : r.frames with
  | nil => rwa [pop_of_nil hframes] at h
  | cons f frames =>
    obtain ⟨emptyItem, hempty, hpop⟩ := exists_pop hframes stop
    rw [hpop, emptyItem_emit] at h
    rcases hempty with rfl | rfl
    · cases h
    · exact h

end

/-- With no leaf block open, the reader holds what has been read up to `q`. -/
structure Stands (source : Source) (quoted : Bool) (q : Nat) (r : Reader) : Prop where
  leaf : r.leaf = none
  emptyItem : ∀ e ∈ r.emptyItem, e ≤ q ∧ Text.isBoundary source.text e
  held : Held source (r.emptyItem.getD q) quoted q r.nodes r.frames

/-- A block that is no item can be added. -/
structure Settled (source : Source) (quoted : Bool) (q : Nat) (r : Reader) : Prop where
  leaf : r.leaf = none
  emptyItem : r.emptyItem = none
  noList : quoted = false → NoList r.frames
  held : Held source q quoted q r.nodes r.frames

/-- The reader holds what has been read up to `pos`, but for an open leaf block. -/
structure Reads (source : Source) (pos : Nat) (r : Reader) : Prop where
  emptyItem : ∀ e ∈ r.emptyItem, e ≤ pos ∧ Text.isBoundary source.text e
  exists_held : ∃ quoted p, p ≤ pos ∧ Held source (r.emptyItem.getD pos) quoted p r.nodes r.frames ∧
    ∀ leaf ∈ r.leaf, r.emptyItem = none ∧ (quoted = false → NoList r.frames) ∧
    leaf.Fits source p pos

section

variable {source : Source} {quoted : Bool} {q pos pos' stop : Nat} {r : Reader}
    {leaf : Leaf} {node : Node}

theorem getD_mono {emptyItem : Option Nat} (h : pos ≤ pos') :
    emptyItem.getD pos ≤ emptyItem.getD pos' := by
  cases emptyItem with
  | none => exact h
  | some => exact Nat.le_refl _

theorem Reads.mono (h : Reads source pos r) (hpos : pos ≤ pos') : Reads source pos' r := by
  obtain ⟨quoted, p, hp, hheld, hleaf⟩ := h.exists_held
  refine ⟨fun e he => ⟨Nat.le_trans (h.emptyItem e he).1 hpos, (h.emptyItem e he).2⟩, quoted, p,
    Nat.le_trans hp hpos, hheld.mono (getD_mono hpos) (Nat.le_refl _), fun leaf hl => ?_⟩
  obtain ⟨hempty, hlist, hfits⟩ := hleaf leaf hl
  exact ⟨hempty, hlist, hfits.mono hpos⟩

theorem Reads.exists_stands (h : Reads source pos r) (hleaf : r.leaf = none) :
    ∃ quoted, Stands source quoted pos r := by
  obtain ⟨quoted, p, hp, hheld, -⟩ := h.exists_held
  exact ⟨quoted, hleaf, h.emptyItem, hheld.mono (Nat.le_refl _) hp⟩

theorem Stands.reads (h : Stands source quoted q r) : Reads source q r :=
  ⟨h.emptyItem, quoted, q, Nat.le_refl _, h.held, fun _ hl => by rw [h.leaf] at hl; cases hl⟩

theorem Settled.stands (h : Settled source quoted q r) : Stands source quoted q r := by
  refine ⟨h.leaf, fun e he => ?_, ?_⟩
  · rw [h.emptyItem] at he
    cases he
  · rw [h.emptyItem]
    exact h.held

/-- A leaf block is opened. -/
theorem Settled.open (h : Settled source quoted q r) (hleaf : leaf.Fits source q pos)
    (hq : q ≤ pos) : Reads source pos { r with leaf := some leaf } := by
  refine ⟨h.stands.reads.mono hq |>.emptyItem, quoted, q, hq, ?_, fun leaf' hl => ?_⟩
  · change Held source (r.emptyItem.getD pos) quoted q r.nodes r.frames
    rw [h.emptyItem]
    exact h.held.mono hq (Nat.le_refl _)
  · obtain rfl := Option.some.inj hl
    exact ⟨h.emptyItem, h.noList, hleaf⟩

/-- A node is added. -/
theorem Settled.emit (h : Settled source quoted q r) (hnode : node.Within source)
    (hs : Node.Spaced source.text q node pos) : Settled source quoted pos (r.emit node) := by
  refine ⟨(leaf_emit r node).trans h.leaf, (emptyItem_emit r node).trans h.emptyItem,
    fun hquoted => noList_emit (h.noList hquoted), ?_⟩
  exact (h.held.emit h.noList hnode hs).mono hs.le (Nat.le_refl _)

/-- The open leaf block ends as a node behind what has been read before. -/
theorem Reads.emit_of_leaf (h : Reads source pos r) (hleaf : r.leaf = some leaf) (hpos : pos ≤ stop)
    (hnode : ∀ p, leaf.Fits source p pos → node.Within source ∧ ∃ q, q ≤ stop ∧
      Node.Spaced source.text p node q) :
    Reads source stop ({ r with leaf := none }.emit node) := by
  obtain ⟨quoted, p, -, hheld, hfits⟩ := h.exists_held
  obtain ⟨hempty, hlist, hfits⟩ := hfits leaf hleaf
  obtain ⟨hwithin, q, hq, hs⟩ := hnode p hfits
  rw [hempty] at hheld
  have hemit := @Held.emit source pos p q quoted node { r with leaf := none } hheld hlist hwithin hs
  have hnone : ({ r with leaf := none }.emit node).emptyItem = none :=
    (emptyItem_emit _ _).trans hempty
  refine ⟨fun e he => ?_, quoted, q, hq, ?_, fun leaf' hl => ?_⟩
  · cases hnone.symm.trans he
  · rw [hnone]
    exact hemit.mono hpos (Nat.le_refl _)
  · cases (leaf_emit _ _).symm.trans hl

/-- The open leaf block is closed. -/
theorem Reads.closeLeaf (h : Reads source pos r) (hpos : pos ≤ stop)
    (hstop : Text.isBoundary source.text stop) :
    Reads source stop (r.closeLeaf stop) ∧ (r.closeLeaf stop).leaf = none ∧
      (r.closeLeaf stop).containers = r.containers := by
  rw [Reader.closeLeaf]
  split
  · next hleaf => exact ⟨h.mono hpos, hleaf, rfl⟩
  · next leaf hleaf =>
    exact ⟨h.emit_of_leaf hleaf hpos fun p hfits => hfits.node hpos hstop, leaf_emit _ _,
      containers_emit _ _⟩

end

/-! ### Closing containers -/

section

variable {source : Source} {quoted : Bool} {q : Nat} {r : Reader}

theorem Stands.pop (h : Stands source quoted q r) (hq : Text.isBoundary source.text q) :
    ∃ quoted', Stands source quoted' q (r.pop q) := by
  have hlimit : r.emptyItem.getD q ≤ q := by
    cases hempty : r.emptyItem with
    | none => exact Nat.le_refl _
    | some e => exact (h.emptyItem e hempty).1
  obtain ⟨quoted', hheld⟩ := h.held.pop hlimit hq (Nat.le_refl _)
  refine ⟨quoted', (leaf_pop r q).trans h.leaf, fun e he => h.emptyItem e (mem_emptyItem_of_pop he),
    ?_⟩
  cases hempty : (r.pop q).emptyItem with
  | none => exact hheld.mono hlimit (Nat.le_refl _)
  | some e =>
    have hkept : r.emptyItem = some e := mem_emptyItem_of_pop hempty
    rw [hkept] at hheld
    exact hheld

/-- Containers are closed, the innermost first. -/
theorem Stands.popMany (h : Stands source quoted q r) (hq : Text.isBoundary source.text q)
    (n : Nat) : ∃ quoted', Stands source quoted' q (popMany q n r) := by
  induction n generalizing r quoted with
  | zero => exact ⟨quoted, h⟩
  | succ n ih =>
    obtain ⟨quoted', h⟩ := h.pop hq
    exact ih h

theorem length_containers (r : Reader) : r.containers.length = r.frames.length := by
  rw [containers, List.length_map, List.length_reverse]

/-- Of the containers, the outermost stay open. -/
theorem containers_popMany (r : Reader) (stop n : Nat) :
    (Reader.popMany stop n r).containers = r.containers.take (r.frames.length - n) := by
  induction n generalizing r with
  | zero => rw [Reader.popMany, Nat.sub_zero, ← length_containers, List.take_length]
  | succ n ih =>
    rw [Reader.popMany, ih]
    cases hframes : r.frames with
    | nil =>
      rw [pop_of_nil hframes, hframes, List.length_nil, Nat.zero_sub, Nat.zero_sub]
    | cons f frames =>
      have hpop := containers_pop hframes stop
      have hlength : (r.pop stop).frames.length = frames.length := by
        rw [← length_containers, hpop, List.length_map, List.length_reverse]
      rw [hpop, hlength, containers, hframes, List.reverse_cons, List.map_append, List.length_cons,
        Nat.add_sub_add_right, List.take_append_of_le_length]
      rw [List.length_map, List.length_reverse]
      exact Nat.sub_le _ _

end

/-! ### Closing items and lists -/

/-- Closes the innermost container, if it is a list. -/
def closeList (r : Reader) (stop : Nat) : Reader :=
  match r.frames with
  | ⟨.list .., _, _⟩ :: _ => r.pop stop
  | _ => r

/-- A blank line before a block loosens the list around its item. -/
def loosenAround (r : Reader) : Reader :=
  if r.lastLineBlank then
    let frames := match r.frames with
      | item :: list :: outer => item :: list.loosen :: outer
      | frames => frames
    { r with frames, lastLineBlank := false }
  else r

theorem finishList_eq (r : Reader) (stop : Nat) :
    r.finishList stop = (r.finishEmptyItem.closeList stop).loosenAround := rfl

section

variable {source : Source} {quoted : Bool} {q start stop limit content : Nat} {r : Reader}

theorem frames_finishEmptyItem (h : r.emptyItem = none) : r.finishEmptyItem.frames = r.frames := by
  rw [finishEmptyItem, h]

/-- An item that has turned out to be empty is closed where its first line ends. -/
theorem Stands.finishEmptyItem (h : Stands source quoted q r) : r.finishEmptyItem.leaf = none ∧
    r.finishEmptyItem.emptyItem = none ∧
    Held source q quoted q r.finishEmptyItem.nodes r.finishEmptyItem.frames := by
  have hheld := h.held
  rw [Reader.finishEmptyItem]
  cases hempty : r.emptyItem with
  | none =>
    rw [hempty] at hheld
    exact ⟨h.leaf, rfl, hheld⟩
  | some e =>
    obtain ⟨he, hboundary⟩ := h.emptyItem e hempty
    rw [hempty] at hheld
    dsimp only
    split
    · next hcond =>
      refine ⟨(leaf_pop r e).trans h.leaf, rfl, ?_⟩
      have hin := (Bool.and_eq_true_iff.1 hcond).2
      rw [inItem] at hin
      split at hin
      · next hframes =>
          exact (hheld.popItem hframes rfl (Nat.le_refl _) hboundary).mono he (Nat.le_refl _)
      · cases hin
    · exact ⟨h.leaf, rfl, hheld.mono he (Nat.le_refl _)⟩

theorem alike_loosenAround (r : Reader) :
    List.Forall₂ Frame.Alike r.frames r.loosenAround.frames := by
  rw [loosenAround]
  split
  · dsimp only
    split
    · next hframes =>
      rw [hframes]
      exact .cons (.refl _) (.cons (Frame.alike_loosen _) (alike_self _))
    · exact alike_self _
  · exact alike_self _

theorem Settled.loosenAround (h : Settled source quoted q r) :
    Settled source quoted q r.loosenAround := by
  have ha := alike_loosenAround r
  have hfields : r.loosenAround.leaf = r.leaf ∧ r.loosenAround.emptyItem = r.emptyItem ∧
      r.loosenAround.nodes = r.nodes := by
    rw [Reader.loosenAround]
    split <;> exact ⟨rfl, rfl, rfl⟩
  obtain ⟨hleaf, hempty, hnodes⟩ := hfields
  exact ⟨hleaf.trans h.leaf, hempty.trans h.emptyItem, fun hquoted => (h.noList hquoted).alike ha,
    hnodes ▸ h.held.alike ha⟩

/-- Before a block that is no item the list in which it would stand is closed. Either that list has
    been opened before the line, or there is none. -/
theorem Stands.finishList (h : Stands source quoted q r) (stop : Nat)
    (hstop : Text.isBoundary source.text stop)
    (hq : q ≤ stop + 1 ∨ r.emptyItem = none ∧ NoList r.frames) :
    Settled source quoted q (r.finishList stop) := by
  rw [finishList_eq]
  have hframes := fun hempty => @frames_finishEmptyItem r hempty
  obtain ⟨hleaf, hempty, hheld⟩ := h.finishEmptyItem
  generalize r.finishEmptyItem = s at hframes hleaf hempty hheld
  refine Settled.loosenAround ?_
  rw [closeList]
  split
  · next mark number tight start children frames hlist =>
    have hq : q ≤ stop + 1 := by
      rcases hq with hq | ⟨hnone, hnoList⟩
      · exact hq
      · rw [← hframes hnone, hlist] at hnoList
        exact absurd rfl (hnoList _ rfl _ _ _)
    have hempty' : (s.pop stop).emptyItem = none := by
      cases he : (s.pop stop).emptyItem with
      | none => rfl
      | some e =>
        have := mem_emptyItem_of_pop he
        rw [hempty] at this
        cases this
    refine ⟨(leaf_pop s stop).trans hleaf, hempty', fun hquoted => ?_,
      hheld.popList hlist rfl hq hstop⟩
    obtain ⟨emptyItem, -, hpop⟩ := exists_pop hlist stop
    rw [hpop]
    refine noList_emit ?_
    have hlaid := hheld.laid
    rw [hquoted, hlist] at hlaid
    cases hlaid with
    | nested h => exact absurd rfl (h.noList _ rfl _ _ _)
    | list h => exact h.noList
  · next hother =>
    refine ⟨hleaf, hempty, fun _ => ?_, hheld⟩
    intro f hf mark number tight hcontainer
    obtain ⟨frames, hcons⟩ := List.head?_eq_some_iff.1 hf
    obtain ⟨container, start, children⟩ := f
    subst hcontainer
    exact hother _ _ _ _ _ _ hcons

/-- For an item, the list before it is continued, or another one is opened. -/
theorem Stands.continueList {m : ListMark} (h : Stands source quoted q r)
    (hstart : Text.isBoundary source.text start)
    (hq : q ≤ start + 1 ∨ r.emptyItem = none ∧ NoList r.frames) :
    (r.continueList start m).leaf = none ∧ (r.continueList start m).emptyItem = none ∧
      ((∃ f frames mark number tight, (r.continueList start m).frames = f :: frames ∧
          f.container = .list mark number tight ∧
          Held source q quoted q (r.continueList start m).nodes (f :: frames)) ∨
        ∃ s, Settled source quoted q s ∧ (r.continueList start m).nodes = s.nodes ∧
          (r.continueList start m).frames = ⟨.list m.mark m.number true, start, []⟩ ::
          s.frames) := by
  rw [Reader.continueList]
  have hframes := fun hempty => @frames_finishEmptyItem r hempty
  obtain ⟨hleaf, hempty, hheld⟩ := h.finishEmptyItem
  generalize r.finishEmptyItem = s at hframes hleaf hempty hheld
  have hstands : Stands source quoted q s := by
    refine ⟨hleaf, fun e he => ?_, ?_⟩
    · rw [hempty] at he
      cases he
    · rw [hempty]
      exact hheld
  have hopened := hstands.finishList start hstart (hq.imp id fun (hq : _ ∧ _) =>
    ⟨hempty, (hframes hq.1).symm ▸ hq.2⟩)
  have hpush : ((s.finishList start).push (.list m.mark m.number true) start).leaf = none ∧
      ((s.finishList start).push (.list m.mark m.number true) start).emptyItem = none :=
        ⟨hopened.leaf, hopened.emptyItem⟩
  split
  · next mark number tight lstart children frames hlist =>
    split
    · exact ⟨hpush.1, hpush.2, .inr ⟨_, hopened, rfl, rfl⟩⟩
    · split
      · refine ⟨hleaf, hempty, .inl ⟨_, frames, mark, number, false, rfl, rfl, ?_⟩⟩
        exact hheld.alike (hlist ▸ .cons (Frame.alike_loosen _) (alike_self _))
      · exact ⟨hleaf, hempty, .inl ⟨_, _, _, _, _, hlist, rfl, hlist ▸ hheld⟩⟩
  · exact ⟨hpush.1, hpush.2, .inr ⟨_, hopened, rfl, rfl⟩⟩

/-- An item is opened. -/
theorem Stands.openItem {m : ListMark} (h : Stands source quoted q r)
    (hstart : Text.isBoundary source.text start)
    (hq : q ≤ start + 1 ∨ r.emptyItem = none ∧ NoList r.frames) (hnumber : m.number ≤ 999999999)
    (hlimit : q ≤ limit) (hlt : start < limit)
    (hmarked : quoted = false → ∃ place stop, source.text.MarkedAt start place stop ∧
      stop ≤ limit ∧ q ≤ place)
    (hcontent : content ≠ 1) :
    Settled source quoted limit ((r.continueList start m).push (.item content) start) := by
  obtain ⟨hleaf, hempty, hlist⟩ := @Stands.continueList source quoted q start r m h hstart hq
  refine ⟨hleaf, hempty, fun _ => noList_cons nofun, ?_⟩
  change Held source limit quoted limit (r.continueList start m).nodes
    (⟨.item content, start, []⟩ :: (r.continueList start m).frames)
  rcases hlist with ⟨f, frames, mark, number, tight, hframes, hcontainer, hheld⟩
    | ⟨s, hs, hnodes, hframes⟩
  · rw [hframes]
    exact hheld.pushItem hcontainer hlimit hlt hstart hmarked hcontent
  · rw [hnodes, hframes]
    exact hs.held.pushListItem hs.noList hnumber hlimit hlt hstart hmarked hcontent

/-- A quote is opened. -/
theorem Settled.openQuote (h : Settled source quoted q r) (hq : q ≤ start) (hlt : start < limit)
    (hstart : Text.isBoundary source.text start) :
    Settled source true limit (r.push .quote start) :=
  ⟨h.leaf, h.emptyItem, nofun, h.held.pushQuote h.noList hq (by omega) hlt hstart limit⟩

end

end Reader

end Taskdown.Markup
