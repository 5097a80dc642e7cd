import Taskdown.Document.Format
import Taskdown.Proofs.Document.Arrangement
import Taskdown.Proofs.Document.Building

/-!
# Collecting along a document

What a document puts out is collected along its tree: every block that is no list contributes
something, an item makes something of what its blocks contribute, and the items of a list come as
they are arranged. A *collection* says what blocks contribute and what items make of it
(`Collection.ofBlocks`).

The script of a document is collected in the same way. So if some relation between scripts and what
is collected holds for every block that is no list, is kept by items, and is kept when scripts
follow each other, it holds for the whole document (`Collection.Told.exists_scriptOfBlocks`).
-/

namespace Taskdown

/-- What is collected along a document. -/
structure Collection (α : Type) where
  /-- What a block that is no list contributes, in an item whose content starts at a column. -/
  leaf (indent : Nat) (block : Block) : List α
  /-- What an item makes of what its blocks contribute. The item has an ordinal in its list, which
      has a first number if it is ordered. -/
  item (start : Option Nat) (ordinal : Nat) (item : Item) (inner : List α) : List α

namespace Collection

section

variable {α : Type} (c : Collection α) (o : FormatOptions)

/-- What is collected along the items of a list from an ordinal on, each with what its blocks
    contribute. -/
def ofList (start : Option Nat) : Nat → List (Item × List α) → List α
  | _, [] => []
  | ordinal, (item, inner) :: items =>
    c.item start ordinal item inner ++ ofList start (ordinal + 1) items

mutual

/-- What is collected along a block. -/
def ofBlock (indent : Nat) : Block → List α
  | .paragraph view => c.leaf indent (.paragraph view)
  | .heading view => c.leaf indent (.heading view)
  | .code view => c.leaf indent (.code view)
  | .other view => c.leaf indent (.other view)
  | .list _ start _ items => c.ofList start 0 (o.arranged Prod.fst (inners items))

/-- The items of a list, each with what its blocks contribute. -/
def inners : List Item → List (Item × List α)
  | [] => []
  | item@⟨_, _, _, column, children⟩ :: items => (item, ofBlocks column children) :: inners items

/-- What is collected along blocks. -/
def ofBlocks (indent : Nat) : List Block → List α
  | [] => []
  | block :: blocks => ofBlock indent block ++ ofBlocks indent blocks

end

/-- What is collected is told by the scripts, as `tells` says, provided that the views of blocks and
    the items are as required. -/
structure Told (sound : View → Prop) (clean : Item → Prop) (tells : Script → List α → Prop) :
    Prop where
  nil : tells [] []
  append {a b : Script} {as bs : List α} : tells a as → tells b bs → tells (a ++ b) (as ++ bs)
  blankLine : tells [.blankLine] []
  paragraph (indent : Nat) {view : View} : sound view →
    tells (.ofTextLines view.textLines) (c.leaf indent (.paragraph view))
  heading (indent : Nat) {view : View} : sound view →
    tells (.ofTextLines view.textLines) (c.leaf indent (.heading view))
  code (indent : Nat) {view : View} : sound view →
    tells ([.openRun] ++ Script.ofKeptLines (view.keptLines indent) ++ [.closeRun])
      (c.leaf indent (.code view))
  other (indent : Nat) {view : View} : sound view →
    tells (.ofKeptLines (view.keptLines indent)) (c.leaf indent (.other view))
  item (start : Option Nat) (ordinal : Nat) {item : Item} {body : Script} {inner : List α} :
    clean item → tells body inner →
    tells (item.script o start ordinal body) (c.item start ordinal item inner)

end

namespace Told

variable {α : Type} {c : Collection α} {o : FormatOptions} {sound : View → Prop}
  {clean : Item → Prop} {tells : Script → List α → Prop}

/-- Items are told one after the other. -/
theorem scriptOfList (h : c.Told o sound clean tells) (start : Option Nat)
    (loose : Bool) (ordinal : Nat) (parts : List (Item × Script × List α))
    (hclean : ∀ p ∈ parts, clean p.1) (htells : ∀ p ∈ parts, tells p.2.1 p.2.2) :
    tells (Item.scriptOfList o start loose ordinal (parts.map fun p => (p.1, p.2.1)))
      (c.ofList start ordinal (parts.map fun p => (p.1, p.2.2))) := by
  induction parts generalizing ordinal with
  | nil => exact h.nil
  | cons p parts ih =>
    have hgap : tells (if 0 < ordinal && loose then [Writer.Step.blankLine] else []) [] := by
      split
      · exact h.blankLine
      · exact h.nil
    have hitem := h.item start ordinal (hclean p List.mem_cons_self) (htells p List.mem_cons_self)
    rw [List.map_cons, List.map_cons, Item.scriptOfList, ofList]
    exact h.append (h.append hgap hitem)
      (ih (ordinal + 1) (fun q hq => hclean q (List.mem_cons_of_mem _ hq)) fun q hq =>
        htells q (List.mem_cons_of_mem _ hq))

mutual

/-- A block has a script, which tells what is collected along the block. -/
theorem exists_script (h : c.Told o sound clean tells) : ∀ (block : Block) (indent : Nat),
    (∀ v ∈ block.leafViews, sound v) → (∀ item ∈ Block.items [block], clean item) →
    ∃ script, block.script o indent = .ok script ∧ tells script (c.ofBlock o indent block)
  | .paragraph _, indent, hv, _ => ⟨_, rfl, h.paragraph indent (hv _ List.mem_cons_self)⟩
  | .heading _, indent, hv, _ => ⟨_, rfl, h.heading indent (hv _ List.mem_cons_self)⟩
  | .code _, indent, hv, _ => ⟨_, rfl, h.code indent (hv _ List.mem_cons_self)⟩
  | .other _, indent, hv, _ => ⟨_, rfl, h.other indent (hv _ List.mem_cons_self)⟩
  | .list view start loose items, indent, hv, hm => by
    rw [Block.items, Block.items, List.append_nil] at hm
    obtain ⟨parts, hbodies, hinners, hitems, htells⟩ := h.exists_parts loose items hv hm
    -- Scripts and what is collected are arranged as the items are.
    let arranged := o.arranged (fun p : Item × Script × List α => p.1) parts
    have hperm : arranged.Perm parts := o.arranged_perm _ parts
    have hlist := h.scriptOfList start loose 0 arranged
      (fun p hp => hm p.1 (Item.mem_flatten_of_mem (hitems p (hperm.mem_iff.1 hp))))
      fun p hp => htells p (hperm.mem_iff.1 hp)
    have hscripts := o.map_arranged Prod.fst (fun p : Item × Script × List α => (p.1, p.2.1)) parts
    have hlists := o.map_arranged Prod.fst (fun p : Item × Script × List α => (p.1, p.2.2)) parts
    rw [ofBlock, hinners, ← hlists]
    refine ⟨_, ?_, hlist⟩
    rw [Block.script, hbodies]
    change (o.arrangeBy Prod.fst _ >>= _) = _
    rw [o.arrangeBy_eq, ← hscripts]
    rfl

/-- The items of a list have scripts for their contents. -/
theorem exists_parts (h : c.Told o sound clean tells) (loose : Bool) : ∀ items : List Item,
    (∀ v ∈ Item.leafViews items, sound v) → (∀ item ∈ Item.flatten items, clean item) →
    ∃ parts : List (Item × Script × List α),
      Item.withBodies o loose items = .ok (parts.map fun p => (p.1, p.2.1)) ∧
      c.inners o items = parts.map (fun p => (p.1, p.2.2)) ∧
      (∀ p ∈ parts, p.1 ∈ items) ∧ ∀ p ∈ parts, tells p.2.1 p.2.2
  | [], _, _ =>
    ⟨[], rfl, rfl, fun _ h => absurd h List.not_mem_nil, fun _ h => absurd h List.not_mem_nil⟩
  | ⟨view, marker, task, column, children⟩ :: items, hv, hm => by
    rw [Item.leafViews] at hv
    rw [Item.flatten] at hm
    obtain ⟨script, hscript, htells⟩ := h.exists_scriptOfBlocks loose children column false
      (fun v hv' => hv v (List.mem_append_left _ hv'))
      fun item hitem => hm item (List.mem_cons_of_mem _ (List.mem_append_left _ hitem))
    obtain ⟨parts, hbodies, hinners, hitems, hrest⟩ := h.exists_parts loose items
      (fun v hv' => hv v (List.mem_append_right _ hv'))
      fun item hitem => hm item (List.mem_cons_of_mem _ (List.mem_append_right _ hitem))
    refine ⟨(⟨view, marker, task, column, children⟩, script, c.ofBlocks o column children) :: parts,
      ?_, ?_, List.forall_mem_cons.2 ⟨List.mem_cons_self,
        fun p hp => List.mem_cons_of_mem _ (hitems p hp)⟩,
      List.forall_mem_cons.2 ⟨htells, hrest⟩⟩
    · rw [Item.withBodies, hscript, hbodies]
      rfl
    · rw [inners, hinners]
      rfl

/-- Blocks are told one after the other. -/
theorem exists_scriptOfBlocks (h : c.Told o sound clean tells) (separated : Bool) :
    ∀ (blocks : List Block) (indent : Nat) (behind : Bool),
    (∀ v ∈ Block.leafViewsOf blocks, sound v) → (∀ item ∈ Block.items blocks, clean item) →
    ∃ script, Block.scriptOfBlocks o indent separated behind blocks = .ok script ∧
      tells script (c.ofBlocks o indent blocks)
  | [], _, _, _, _ => ⟨[], rfl, h.nil⟩
  | block :: blocks, indent, behind, hv, hm => by
    rw [Block.leafViewsOf] at hv
    rw [Block.items_cons] at hm
    obtain ⟨script, hscript, htells⟩ := h.exists_script block indent
      (fun v hv' => hv v (List.mem_append_left _ hv')) fun item hitem =>
      hm item (List.mem_append_left _ hitem)
    obtain ⟨rest, hrest, hrestTells⟩ := h.exists_scriptOfBlocks separated blocks indent true
      (fun v hv' => hv v (List.mem_append_right _ hv')) fun item hitem =>
      hm item (List.mem_append_right _ hitem)
    have hgap : tells (if behind && separated then [.blankLine] else []) [] := by
      split
      · exact h.blankLine
      · exact h.nil
    refine ⟨_, ?_, h.append (h.append hgap htells) hrestTells⟩
    rw [Block.scriptOfBlocks, hscript, hrest]
    rfl

end

end Told

end Collection

end Taskdown
