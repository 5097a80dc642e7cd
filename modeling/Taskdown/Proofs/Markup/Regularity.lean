import Taskdown.Proofs.Markup.Holding

/-!
# The structure of a text is regular

Every step of reading a line keeps what the reader holds in order: containers are closed and opened
(`Reader.Opening.openContainers`), and a leaf block is opened (`Reader.Opening.openLeaf`) or goes on
(`Reader.Reads.continueParagraph` and the like). So a line that has been read takes the reader from
its start to its end (`Reader.Reads.line`), and at the end of the text all nodes are spaced out over
it (`structureOf_regular`).
-/

namespace Taskdown.Markup

/-- Blanks at the front do not matter to whether a line is blank. -/
theorem isBlankLine_append {blanks rest : Text} (h : ∀ x ∈ blanks, Text.isSpaceTab x) :
    isBlankLine (blanks ++ rest) = isBlankLine rest := by
  have hblank : blanks.all isLineBlank = true :=
    List.all_eq_true.2 fun x hx => isLineBlank_of_isSpaceTab (h x hx)
  rw [isBlankLine, List.all_append, hblank, Bool.true_and]
  rfl

theorem openingFence?_spec {cs : Text} {fence : Fence} (h : openingFence? cs = some fence) :
    fence.mark.utf8Size = 1 := by
  cases cs with
  | nil => cases h
  | cons c cs =>
    rw [openingFence?] at h
    split at h
    · next hform =>
      obtain rfl := Option.some.inj h
      rcases hform.1 with rfl | rfl <;> rfl
    · cases h

/-- A closing fence goes on to the end of its line. -/
theorem closingFence?_spec {fence : Fence} {cs : Text} {count : Nat}
    (hmark : fence.mark.utf8Size = 1) (h : closingFence? fence cs = some count) :
    count = Text.width cs := by
  rw [closingFence?] at h
  obtain ⟨blanks, hblanks⟩ := List.takeWhile_prefix (fun x => decide (x = fence.mark)) (l := cs)
  have hmarks : ∀ x ∈ cs.takeWhile (fun x => decide (x = fence.mark)), x = fence.mark :=
    fun x hx => by simpa using List.mem_takeWhile_imp hx
  generalize cs.takeWhile (fun x => decide (x = fence.mark)) = marks at h hblanks hmarks
  split at h
  · next hform =>
    obtain rfl := Option.some.inj h
    rw [← hblanks, List.drop_left] at hform
    rw [← hblanks]
    refine (Text.width_eq_length_of_forall
      (List.forall_mem_append.2 ⟨fun x hx => hmarks x hx ▸ hmark, fun x hx => ?_⟩)).symm
    rw [of_decide_eq_true (List.all_eq_true.1 hform.2 x hx)]
    rfl
  · cases h

/-- There is no mark of a container on a blank line. -/
theorem marks_of_isBlankLine {c : LineCursor} (h : isBlankLine c.rest) (indent : Nat) :
    itemMark? c indent = none ∧ quoteMark? c = none := by
  rw [itemMark?, quoteMark?]
  cases hrest : c.rest with
  | nil => exact ⟨rfl, rfl⟩
  | cons x rest =>
    rw [hrest] at h
    have hx : isLineBlank x := List.all_eq_true.1 h x List.mem_cons_self
    simp only [isLineBlank, Bool.or_eq_true, decide_eq_true_eq] at hx
    rcases hx with ((rfl | rfl) | rfl) | rfl <;> exact ⟨rfl, rfl⟩

namespace Reader

/-! ## Within a line -/

/-- With the line read up to a cursor, the reader holds what has been read up to `q`, and has opened
    no list that might have to be closed before `q`. Outside of quotes the cursor is behind blanks,
    or right in front of the next mark, or in front of indented code. -/
structure Opening (source : Source) (l : SourceLine) (quoted : Bool) (q : Nat)
    (front : Text) (r : Reader) (c : LineCursor) : Prop where
  stands : Stands source quoted q r
  le : l.start ≤ q
  le_offset : q ≤ c.offset
  fresh : q = l.start ∨ r.emptyItem = none ∧ NoList r.frames
  line : c.At l front
  aligned : c.Aligned front
  clear : quoted = false → (∀ x ∈ front, Text.isSpaceTab x) ∨ (c.skip 4).1 = 4 ∨ (c.skip 4).1 = 0

section

variable {source : Source} {l : SourceLine} {below : List SourceLine} {quoted : Bool}
  {q pos : Nat} {front : Text} {r : Reader} {c d e : LineCursor}

/-- An item ends with its first line, unless something follows. -/
theorem Settled.endItem (h : Settled source quoted q r) (hq : q ≤ pos)
    (hpos : Text.isBoundary source.text pos) :
    Reads source pos { r with emptyItem := some pos } := by
  refine ⟨fun e he => ?_, quoted, q, hq, h.held.mono hq (Nat.le_refl _), fun leaf hl => ?_⟩
  · obtain rfl := Option.some.inj he
    exact ⟨Nat.le_refl _, hpos⟩
  · change r.leaf = some leaf at hl
    rw [h.leaf] at hl
    cases hl

/-- A paragraph or a table is opened. -/
theorem Settled.openParagraph {task : List Node} (h : Settled source quoted q r)
    (hl : l.In source.text) (hc : c.At l front) (hq : q ≤ c.offset)
    (hblank : isBlankLine c.rest = false)
    (htask : ∀ node ∈ task, node.Within source ∧ ∃ span done, node = .task span done) :
    Reads source l.stop (r.openParagraph l below c task) := by
  obtain ⟨hle, hlt, hstart⟩ := textStart_spec hl hc hblank
  have hstop := textStop_le hl
  rw [Reader.openParagraph]
  split
  · have hopen : Reads source l.stop { r with leaf := some (.table c.offset) } :=
      h.open (.table hq (by omega) (hc.isBoundary hl)) (by omega)
    exact ⟨hopen.emptyItem, hopen.exists_held⟩
  · exact h.open (.paragraph hq (by omega) (hc.isBoundary hl) htask hle hlt hstop hstart
      (isBoundary_textStop hl)) (by omega)

/-- The marker of an item starts at a boundary behind what has been read. Outside of quotes there
    are only blanks before it on its line. -/
theorem Opening.exists_start (h : Opening source l quoted q front r c) (hl : l.In source.text)
    {n : Nat} {blanks : Text} (hs : LineCursor.Skips 4 c n d blanks) (hskip : c.skip 4 = (n, d))
    (hn : n < 4) {marker rest : Text} (hrest : d.rest = marker ++ rest)
    (hmarker : Text.IsItemMarker marker) :
    Text.isBoundary source.text (d.offset - n) ∧
    (q ≤ d.offset - n + 1 ∨ r.emptyItem = none ∧ NoList r.frames) ∧
      (quoted = false →
        source.text.MarkedAt (d.offset - n) d.offset (d.offset + Text.width marker)) := by
  have hline := h.line.skip hs
  have hle := h.aligned.skipped_le hs hn
  have hnarrow : ∀ x ∈ front ++ blanks, x.utf8Size = 1 :=
    List.forall_mem_append.2 ⟨h.aligned.narrow,
      fun x hx => Text.utf8Size_of_isSpaceTab (hs.blank x hx)⟩
  obtain ⟨left, right, behind, htext, hleft, hright, hmem⟩ := hl.exists_start hline.body hnarrow hle
  rw [← hline.offset] at hleft hright
  refine ⟨?_, ?_, fun hquoted => ⟨left, right, marker, rest ++ behind, ?_, fun x hx => ?_, hmarker,
    hleft.symm, ?_, rfl⟩⟩
  · rw [← hleft, htext]
    exact Text.isBoundary_append_left _ _
  · refine h.fresh.imp (fun hq => ?_) id
    have hoffset := hline.offset
    rw [Text.width_eq_length_of_forall hnarrow] at hoffset
    omega
  · rw [htext, hrest, List.append_assoc marker]
  · -- Nothing but blanks, or nothing at all, has been moved over.
    have hclear := h.clear hquoted
    rw [hskip] at hclear
    rcases hclear with hblank | hfour | hzero
    · rw [Text.isTrimmed, Bool.or_eq_true]
      refine (hmem x hx).imp (fun hx => ?_) id
      exact (List.mem_append.1 hx).elim (hblank x) (hs.blank x)
    · exact absurd hfour (Nat.ne_of_lt hn)
    · have hnil : right = [] := Text.width_eq_zero_iff.1 (by dsimp only at hzero; omega)
      rw [hnil] at hx
      cases hx
  · rw [hleft] at hright
    exact hright

/-- The line is read up to the content of an item. -/
theorem Opening.openItem {indent content : Nat} {m : ListMark}
    (h : Opening source l quoted q front r c) (hl : l.In source.text)
    (hskip : c.skip 4 = (indent, d)) (hindent : indent < 4)
    (hmark : itemMark? d indent = some (m, e, content)) : ∃ front', e.At l front' ∧
      Settled source quoted e.offset
        ((r.continueList (d.offset - indent) m).push (.item content) (d.offset - indent)) ∧
      (isBlankLine e.rest = false → Opening source l quoted e.offset front'
        ((r.continueList (d.offset - indent) m).push (.item content) (d.offset - indent)) e) := by
  obtain ⟨blanks, hs⟩ := c.skips 4
  rw [hskip] at hs
  dsimp only at hs
  have hline := h.line.skip hs
  have hmoved := hs.offset
  have hle := h.le_offset
  obtain ⟨marker, rest, front', hrest, hmarker, hnumber, hcontent, hline', haligned',
      hmarkStop, hclear⟩ :=
    itemMark?_spec hmark hline (h.aligned.skip hs fun _ => by decide)
  obtain ⟨hstart, hfresh, hmarked⟩ := h.exists_start hl hs hskip hindent hrest hmarker
  have hpos := hmarker.width_pos
  have hsettled : Settled source quoted e.offset
      ((r.continueList (d.offset - indent) m).push (.item content) (d.offset - indent)) :=
    h.stands.openItem hstart hfresh hnumber (by omega) (by omega)
      (fun hquoted => ⟨_, _, hmarked hquoted, hmarkStop, by omega⟩) hcontent
  exact ⟨front', hline', hsettled, fun hblank =>
    { stands := hsettled.stands
      le := hline'.le_offset
      le_offset := Nat.le_refl _
      fresh := .inr ⟨hsettled.emptyItem, noList_cons nofun⟩
      line := hline'
      aligned := haligned'
      clear := fun _ => .inr (hclear.resolve_left (Bool.eq_false_iff.1 hblank)) }⟩

/-- The line is read up to the content of a quote. -/
theorem Opening.openQuote {indent : Nat} (h : Opening source l quoted q front r c)
    (hl : l.In source.text) (hskip : c.skip 4 = (indent, d)) (hmark : quoteMark? d = some e) :
    ∃ front', Opening source l true e.offset front' ((r.finishList l.start).push .quote d.offset)
    e := by
  obtain ⟨blanks, hs⟩ := c.skips 4
  rw [hskip] at hs
  dsimp only at hs
  have hline := h.line.skip hs
  have hmoved := hs.offset
  have hle := h.le_offset
  obtain ⟨hlt, front', hline', haligned'⟩ :=
    quoteMark?_spec hmark hline (h.aligned.skip hs fun _ => by decide)
  have houtside := h.stands.finishList l.start hl.isBoundary_start
    (h.fresh.imp (fun hq => Nat.le_succ_of_le (Nat.le_of_eq hq)) id)
  have hsettled : Settled source true e.offset ((r.finishList l.start).push .quote d.offset) :=
    houtside.openQuote (by omega) hlt (hline.isBoundary hl)
  exact ⟨front',
    { stands := hsettled.stands
      le := hline'.le_offset
      le_offset := Nat.le_refl _
      fresh := .inr ⟨hsettled.emptyItem, noList_cons nofun⟩
      line := hline'
      aligned := haligned'
      clear := nofun }⟩

/-- The marker of a task is a node within the line. -/
theorem within_of_taskMark? {done : Bool} (hl : l.In source.text) (hline : c.At l front)
    (hmark : taskMark? c = some (done, d)) :
    c.offset ≤ d.offset ∧ (∃ front', d.At l front') ∧
    (Node.task ⟨c.offset, d.offset⟩ done).Within source := by
  obtain ⟨middle, hmiddle, hline'⟩ := taskMark?_spec hmark hline
  have hbody : l.body = front ++ (middle ++ d.rest) := by rw [hline.body, hmiddle]
  have hle : c.offset ≤ d.offset := by
    rw [hline.offset, hline'.offset, Text.width_append]
    omega
  refine ⟨hle, ⟨_, hline'⟩,
    Node.within_task (View.admits_of hle (hline.isBoundary hl) (hline'.isBoundary hl)) ?_⟩
  rw [hline.offset, hline'.offset, hl.slice_eq hbody]
  refine fun hmem => hl.newline_not_mem ?_
  rw [hbody]
  exact List.mem_append_right _ (List.mem_append_left _ hmem)

/-- What opening containers comes to: the line is read up to a cursor, or up to its end. -/
def Opened (source : Source) (l : SourceLine) : Reader × Option LineCursor → Prop
  | (r, some c) => ∃ quoted q front, Opening source l quoted q front r c
  | (r, none) => Reads source l.stop r

theorem Opening.openContainers (hl : l.In source.text) (below : List SourceLine) (fuel : Nat)
    (h : Opening source l quoted q front r c) :
    Opened source l (openContainers l below fuel r c) := by
  induction fuel generalizing quoted q front r c with
  | zero => exact ⟨quoted, q, front, h⟩
  | succ fuel ih =>
    rw [Reader.openContainers]
    have hbodyStop := hl.bodyStop_le
    split
    · exact ⟨quoted, q, front, h⟩
    · next indent d hne hskip =>
      have hindent : indent < 4 := by
        obtain ⟨blanks, hs⟩ := c.skips 4
        rw [hskip] at hs
        exact Nat.lt_of_le_of_ne hs.le hne
      split
      · next m e content hmark =>
        obtain ⟨front', hline, hsettled, hopening⟩ := h.openItem hl hskip hindent hmark
        have hstop := hline.offset_le
        dsimp only
        generalize (r.continueList (d.offset - indent) m).push (.item content) (d.offset - indent) =
          s at hsettled hopening
        split
        · exact hsettled.endItem (by omega) hl.isBoundary_stop
        · next hblank =>
          split
          · next done f htask =>
            obtain ⟨hle, ⟨front'', hline'⟩, hnode⟩ := within_of_taskMark? hl hline htask
            split
            · exact (hsettled.emit hnode .task).endItem (by omega) hl.isBoundary_stop
            · next hblank' =>
              obtain ⟨blanks, hline'', hrest, hblanks⟩ := hline'.exists_skipAll
              refine hsettled.openParagraph hl hline'' ?_ ?_
                (List.forall_mem_singleton.2 ⟨hnode, _, _, rfl⟩)
              · have hoffset := hline''.offset
                rw [Text.width_append, ← Nat.add_assoc, ← hline'.offset] at hoffset
                omega
              · rw [Bool.not_eq_true, hrest, isBlankLine_append hblanks] at hblank'
                exact hblank'
          · exact ih (hopening (Bool.not_eq_true _ ▸ hblank))
      · split
        · next e hmark =>
          obtain ⟨front', hopening⟩ := h.openQuote hl hskip hmark
          exact ih hopening
        · exact ⟨quoted, q, front, h⟩

end

/-! ## Starting a line -/

section

variable {source : Source} {l : SourceLine} {below : List SourceLine} {quoted : Bool}
  {q pos stop : Nat} {front : Text} {r : Reader} {c : LineCursor}

/-- A leaf block is opened, or is read at once. -/
theorem Opening.openLeaf (h : Opening source l quoted q front r c) (hl : l.In source.text)
    (hblank : isBlankLine c.rest = false) : Reads source l.stop (r.openLeaf l below c) := by
  obtain ⟨blanks, hs⟩ := c.skips 4
  rw [Reader.openLeaf]
  generalize c.skip 4 = skipped at hs
  obtain ⟨indent, d⟩ := skipped
  dsimp only at hs
  have hline := h.line.skip hs
  have hstart := hline.isBoundary hl
  have hmoved := hs.offset
  have hle := h.le_offset
  rw [hs.rest, isBlankLine_append hs.blank] at hblank
  obtain ⟨htextStart, htextStop, -⟩ := textStart_spec hl hline hblank
  have hstop := textStop_le hl
  have hspan : (View.of source).Admits ⟨d.offset, l.stop⟩ :=
    View.admits_of (by omega) hstart hl.isBoundary_stop
  have houtside := h.stands.finishList l.start hl.isBoundary_start
    (h.fresh.imp (fun hq => Nat.le_succ_of_le (Nat.le_of_eq hq)) id)
  dsimp only
  split
  · next heq =>
    obtain ⟨-, rfl⟩ := Prod.mk.inj heq
    exact houtside.open (.indented (by dsimp only; omega) (by dsimp only; omega) (Nat.le_refl _)
      hstart hl.isBoundary_stop) (by omega)
  · next heq =>
    obtain ⟨-, rfl⟩ := Prod.mk.inj heq
    split
    · next cs _ =>
      have hopen : Reads source l.stop
          { r.finishList l.start with leaf := some (.html d.offset (.withText cs)) } :=
        houtside.open (.html (by omega) (by omega) hstart) (by omega)
      split
      · exact (hopen.closeLeaf (Nat.le_refl _) hl.isBoundary_stop).1
      · exact hopen
    · exact houtside.open (.html (by omega) (by omega) hstart) (by omega)
    · split
      · exact (houtside.emit (Node.within_rule hspan)
          (.rule (by dsimp only; omega) (by dsimp only; omega))).stands.reads
      · split
        · have hheading : (Node.block .heading ⟨d.offset, l.stop⟩ []).Within source :=
            Node.within_block hspan (List.forall_mem_nil _)
          exact (houtside.emit hheading
            (.of_tag (.inl rfl) (by dsimp only; omega) (by dsimp only; omega))).stands.reads
        · split
          · next hfence =>
              exact houtside.open (.fenced (by omega) (by omega) hstart (openingFence?_spec hfence))
                (by omega)
          · split
            · have hreads : Reads source l.stop (r.finishList l.start) :=
                houtside.stands.reads.mono (by omega)
              exact ⟨hreads.emptyItem, hreads.exists_held⟩
            · have hinside :=
                h.stands.finishList d.offset hstart (h.fresh.imp (fun hq => by omega) id)
              exact hinside.openParagraph hl hline (by omega) hblank nofun

/-- A blank line changes nothing but the indentation of an item. -/
theorem Stands.blankLine (h : Stands source quoted q r) : Stands source quoted q r.blankLine := by
  rw [Reader.blankLine]
  split
  · exact h
  · exact h
  · next f frames _ hframes =>
    refine ⟨h.leaf, h.emptyItem, h.held.alike (hframes ▸ .cons ?_ (alike_self _))⟩
    obtain ⟨container, start, children⟩ := f
    cases container with
    | quote | list => exact .refl _
    | item indent =>
      dsimp only
      split
      · exact .item (by decide)
      · exact .refl _

theorem Stands.indents (h : Stands source quoted q r) : ∀ k ∈ r.containers, k ≠ .item 1 := by
  intro k hk
  obtain ⟨f, hf, rfl⟩ := List.mem_map.1 hk
  exact (h.held.within_frames f (List.mem_reverse.1 hf)).indent

theorem Stands.startLine (h : Stands source quoted l.start r) (hl : l.In source.text) :
    Reads source l.stop (r.startLine l below) := by
  obtain ⟨hle, front, hline, haligned, hblank⟩ :=
    matchAll_spec (LineCursor.at_atStart l) (LineCursor.aligned_atStart l) h.indents
  rw [Reader.startLine]
  generalize matchAll (LineCursor.atStart l) r.containers = matched at hle hline haligned hblank
  obtain ⟨n, c⟩ := matched
  dsimp only at hle hline haligned hblank ⊢
  rw [length_containers] at hle
  have hcontainers := containers_popMany r l.start (r.frames.length - n)
  rw [show r.frames.length - (r.frames.length - n) = n by omega] at hcontainers
  obtain ⟨quoted', hstands⟩ := h.popMany hl.isBoundary_start (r.frames.length - n)
  generalize Reader.popMany l.start (r.frames.length - n) r = s at hcontainers hstands
  have hopening : Opening source l quoted' l.start front s c :=
    { stands := hstands
      le := Nat.le_refl _
      le_offset := hline.le_offset
      fresh := .inl rfl
      line := hline
      aligned := haligned
      clear := by
        rintro rfl
        -- No quote is left open, so the line has been matched with blanks only.
        refine .inl (hblank (fun k hk => ?_) nofun)
        rw [← hcontainers] at hk
        obtain ⟨f, hf, rfl⟩ := List.mem_map.1 hk
        exact hstands.held.laid.ne_quote f (List.mem_reverse.1 hf) }
  have hopened := hopening.openContainers hl below (l.body.length + 1)
  generalize openContainers l below (l.body.length + 1) s c = opened at hopened
  obtain ⟨t, c'⟩ := opened
  cases c' with
  | none => exact hopened
  | some c' =>
    obtain ⟨quoted, q, front, hopening⟩ := hopened
    dsimp only at hopening ⊢
    split
    · refine (hopening.stands.blankLine).reads.mono ?_
      exact Nat.le_trans hopening.le_offset (Nat.le_trans hopening.line.offset_le hl.bodyStop_le)
    · next hblank => exact hopening.openLeaf hl (Bool.not_eq_true _ ▸ hblank)

/-! ## Going on -/

theorem Reads.restart (h : Reads source l.start r) (hl : l.In source.text) :
    Reads source l.stop (r.restart l.start l below) := by
  obtain ⟨hreads, hleaf, -⟩ := h.closeLeaf (Nat.le_refl _) hl.isBoundary_start
  obtain ⟨quoted, hstands⟩ := hreads.exists_stands hleaf
  exact hstands.startLine hl

/-- The cursor behind the marks of the containers is in the line. -/
theorem Reads.inside (h : Reads source pos r) (hc : r.inside? l = some c) :
    ∃ front, c.At l front := by
  obtain ⟨quoted, p, -, hheld, -⟩ := h.exists_held
  have hindents : ∀ k ∈ r.containers, k ≠ .item 1 := by
    intro k hk
    obtain ⟨f, hf, rfl⟩ := List.mem_map.1 hk
    exact (hheld.within_frames f (List.mem_reverse.1 hf)).indent
  obtain ⟨-, front, hline, -⟩ :=
    matchAll_spec (LineCursor.at_atStart l) (LineCursor.aligned_atStart l) hindents
  rw [inside?] at hc
  generalize matchAll (LineCursor.atStart l) r.containers = matched at hc hline
  obtain ⟨n, d⟩ := matched
  dsimp only at hc hline
  split at hc
  · obtain rfl := Option.some.inj hc
    exact ⟨front, hline⟩
  · cases hc

theorem openContainers_of_isBlankLine (h : isBlankLine c.rest) (fuel : Nat) :
    openContainers l below fuel r c = (r, some c) := by
  cases fuel with
  | zero => rfl
  | succ fuel =>
    rw [openContainers]
    obtain ⟨blanks, hs⟩ := c.skips 4
    rw [hs.rest, isBlankLine_append hs.blank] at h
    generalize c.skip 4 = skipped at h
    obtain ⟨indent, d⟩ := skipped
    obtain ⟨hitem, hquote⟩ := marks_of_isBlankLine h indent
    dsimp only at hitem hquote ⊢
    split
    · rfl
    · next heq =>
      obtain ⟨rfl, rfl⟩ := Prod.mk.inj heq
      rw [hitem, hquote]

/-- A blank line that belongs to all containers starts nothing. -/
theorem startLine_of_isBlankLine (hc : r.inside? l = some c) (h : isBlankLine c.rest) :
    r.startLine l below = r.blankLine := by
  rw [inside?] at hc
  rw [startLine]
  generalize matchAll (LineCursor.atStart l) r.containers = matched at hc
  obtain ⟨n, d⟩ := matched
  dsimp only at hc ⊢
  split at hc
  · next hn =>
    obtain rfl := Option.some.inj hc
    rw [hn, Nat.sub_self, popMany, openContainers_of_isBlankLine h]
    dsimp only
    rw [if_pos h]
  · cases hc

theorem inside?_congr {s : Reader} (h : s.containers = r.containers) (l : SourceLine) :
    s.inside? l = r.inside? l := by
  rw [inside?, inside?, ← length_containers, ← length_containers, h]

theorem Reads.continueParagraph {start : Nat} {task : List Node} {content : Span}
    (h : Reads source l.start r) (hl : l.In source.text)
    (hleaf : r.leaf = some (.paragraph start task content)) :
    Reads source l.stop (r.continueParagraph l below start task content) := by
  have hlt := hl.start_lt_stop
  have hmono := h.mono (Nat.le_of_lt hlt)
  rw [Reader.continueParagraph]
  generalize matchAll (LineCursor.atStart l) r.containers = matched
  obtain ⟨n, c⟩ := matched
  dsimp only
  generalize c.skip 4 = skipped
  obtain ⟨indent, d⟩ := skipped
  split
  · exact h.emit_of_leaf hleaf (Nat.le_of_lt hlt) fun p hfits =>
      hfits.heading (Nat.le_of_lt hlt) hl.isBoundary_stop
  · split
    · exact h.restart hl
    · obtain ⟨quoted, p, hp, hheld, hfits⟩ := hmono.exists_held
      refine ⟨hmono.emptyItem, quoted, p, hp, hheld, fun leaf hl' => ?_⟩
      obtain rfl := Option.some.inj hl'
      obtain ⟨hempty, hlist, hfits⟩ := hfits _ hleaf
      refine ⟨hempty, hlist, ?_⟩
      -- The text so far ends before the line, and now ends in it.
      obtain ⟨quoted', p', -, -, hfits'⟩ := h.exists_held
      have hge := le_textStop l
      cases hfits with
      | paragraph hle hstartLt hstart htask hcontentLe hcontentLt _ hcontentStart =>
        cases (hfits' _ hleaf).2.2 with
        | paragraph _ _ _ _ _ _ hcontentStop =>
          exact .paragraph hle hstartLt hstart htask hcontentLe (by dsimp only; omega)
            (textStop_le hl) hcontentStart (isBoundary_textStop hl)

theorem Reads.continueFenced {start indent : Nat} {fence : Fence} (h : Reads source l.start r)
    (hl : l.In source.text) (hleaf : r.leaf = some (.fenced start fence indent)) :
    Reads source l.stop (r.continueFenced l below fence indent) := by
  have hlt := hl.start_lt_stop
  have hmono := h.mono (Nat.le_of_lt hlt)
  obtain ⟨quoted, p, hp, hheld, hfits⟩ := h.exists_held
  obtain ⟨hempty, hlist, hfits⟩ := hfits _ hleaf
  rw [Reader.continueFenced]
  split
  · split
    · exact (h.closeLeaf (Nat.le_refl _) hl.isBoundary_start).1.mono (Nat.le_of_lt hlt)
    · exact h.restart hl
  · next c hc =>
    obtain ⟨front, hline⟩ := h.inside hc
    obtain ⟨blanks, hs⟩ := c.skips indent
    have hline := hline.skip hs
    obtain ⟨blanks', hs'⟩ := (c.skip indent).2.skips (4 - indent)
    have hline := hline.skip hs'
    generalize (c.skip indent).2.skip (4 - indent) = skipped at hline
    obtain ⟨n, d⟩ := skipped
    dsimp only at hline ⊢
    split
    · split
      · next width hclosing =>
        cases hfits with
        | fenced _ _ _ hmark =>
          have hstop : d.offset + width = l.bodyStop := by
            rw [closingFence?_spec hmark hclosing, hline.offset, SourceLine.bodyStop, hline.body,
              Text.width_append _ d.rest, Nat.add_assoc]
          rw [hstop]
          exact (h.closeLeaf (Nat.le_add_right _ _) hl.isBoundary_bodyStop).1.mono hl.bodyStop_le
      · exact hmono
    · exact hmono

theorem Reads.continueIndented {span : Span} (h : Reads source l.start r) (hl : l.In source.text)
    (hleaf : r.leaf = some (.indented span)) :
    Reads source l.stop (r.continueIndented l below span) := by
  have hlt := hl.start_lt_stop
  have hmono := h.mono (Nat.le_of_lt hlt)
  obtain ⟨quoted, p, hp, hheld, hfits⟩ := hmono.exists_held
  obtain ⟨hempty, hlist, hfits⟩ := hfits _ hleaf
  rw [Reader.continueIndented]
  split
  · exact h.restart hl
  · next c hc =>
    generalize c.skip 4 = skipped
    obtain ⟨n, d⟩ := skipped
    dsimp only
    split
    · exact hmono
    · split
      · refine ⟨hmono.emptyItem, quoted, p, hp, hheld, fun leaf hl' => ?_⟩
        obtain rfl := Option.some.inj hl'
        obtain ⟨quoted', p', -, -, hfits'⟩ := h.exists_held
        cases hfits with
        | indented hle hspan _ hstart =>
          cases (hfits' _ hleaf).2.2 with
          | indented _ _ hstop =>
            exact ⟨hempty, hlist, .indented hle (by dsimp only; omega) (Nat.le_refl _)
              hstart hl.isBoundary_stop⟩
      · exact h.restart hl

theorem Reads.continueHtml {stop : HtmlEnd} (h : Reads source l.start r) (hl : l.In source.text) :
    Reads source l.stop (r.continueHtml l below stop) := by
  have hlt := hl.start_lt_stop
  have hmono := h.mono (Nat.le_of_lt hlt)
  rw [Reader.continueHtml]
  split
  · exact h.restart hl
  · next c hc =>
    split
    · split
      · exact (h.closeLeaf (Nat.le_of_lt hlt) hl.isBoundary_stop).1
      · exact hmono
    · split
      · exact h.restart hl
      · split
        · next hblank =>
          obtain ⟨front, hline⟩ := h.inside hc
          obtain ⟨hreads, hleaf, hcontainers⟩ := h.closeLeaf hline.le_offset (hline.isBoundary hl)
          obtain ⟨quoted, hstands⟩ := hreads.exists_stands hleaf
          rw [Reader.restart, startLine_of_isBlankLine ((inside?_congr hcontainers l).trans hc)
            hblank]
          exact hstands.blankLine.reads.mono (Nat.le_trans hline.offset_le hl.bodyStop_le)
        · exact hmono

theorem Reads.continueTable (h : Reads source l.start r) (hl : l.In source.text) :
    Reads source l.stop (r.continueTable l below) := by
  rw [Reader.continueTable]
  split
  · exact h.restart hl
  · dsimp only
    split
    · exact h.restart hl
    · exact h.mono (Nat.le_of_lt hl.start_lt_stop)

/-! ## Lines -/

/-- Reading a line takes the reader from its start to its end. -/
theorem Reads.line (h : Reads source l.start r) (hl : l.In source.text) :
    Reads source l.stop (r.line l below) := by
  rw [Reader.line]
  split
  · have hmono := h.mono (Nat.le_of_lt hl.start_lt_stop)
    exact ⟨hmono.emptyItem, hmono.exists_held⟩
  · split
    · next hleaf =>
      obtain ⟨quoted, hstands⟩ := h.exists_stands hleaf
      exact hstands.startLine hl
    · next hleaf => exact h.continueParagraph hl hleaf
    · next hleaf => exact h.continueFenced hl hleaf
    · next hleaf => exact h.continueIndented hl hleaf
    · exact h.continueHtml hl
    · exact h.continueTable hl

theorem Reads.lines {ls : List SourceLine} (h : Reads source pos r)
    (hls : SourceLine.Chain source.text pos ls) : Reads source source.size (r.lines ls) := by
  induction hls generalizing r with
  | nil => exact h
  | cons hl _ ih =>
    rw [Reader.lines]
    exact ih (h.line hl)

/-- At the end everything is closed. -/
theorem Reads.finish (h : Reads source source.size r) :
    Node.Regular source (r.finish source.size) := by
  have hsize : Text.isBoundary source.text source.size := Text.isBoundary_width source.text
  obtain ⟨hreads, hleaf, -⟩ := h.closeLeaf (Nat.le_refl _) hsize
  obtain ⟨quoted, hstands⟩ := hreads.exists_stands hleaf
  rw [Reader.finish]
  generalize r.closeLeaf source.size = s at hstands
  have hcontainers := containers_popMany s source.size s.frames.length
  rw [Nat.sub_self, List.take_zero] at hcontainers
  obtain ⟨quoted', hstands⟩ := hstands.popMany hsize s.frames.length
  generalize popMany source.size s.frames.length s = t at hcontainers hstands
  have hnil : t.frames = [] := by
    rw [← List.length_eq_zero_iff, ← length_containers, hcontainers, List.length_nil]
  have hheld := hstands.held
  rw [hnil] at hheld
  exact hheld.regular (Nat.le_refl _)

end

end Reader

/-- The structure of every text is regular. -/
theorem structureOf_regular (source : Source) : Node.Regular source (structureOf source.text) := by
  have hnew : Reader.Reads source 0 {} :=
    ⟨nofun, false, 0, Nat.le_refl _, ⟨nofun, nofun, .nested (.nil (.nil (Nat.le_refl _)))⟩, nofun⟩
  exact (hnew.lines (SourceLine.chain_ofText source.text)).finish

end Taskdown.Markup
