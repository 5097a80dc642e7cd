import Taskdown.Proofs.Document.Admission
import Taskdown.Proofs.Document.Events

/-!
# Structures that are spaced out

The nodes of a structure stand for stretches of a text. Those that matter to a document come one
behind the other: whoever walks over the structure never goes back in the text, and moves on by a
byte at least with every block that is no list, every stretch of text, and every marker of an item.
A list and an item need no room of their own. (They may even start a little too early, so their
spans are not compared.) What is in a quote, a table or another block that is kept as it is does not
matter at all.

* `Node.Spaced`, `Node.SpacedAll`, `Node.SpacedItems`: the walk over a structure, from one offset to
  another;
* `Node.Regular`: a structure that is spaced out over a text, with all of its spans within the text.
-/

namespace Taskdown

/-! ## Markers of items -/

/-- The marker of an item: a bullet, or up to nine digits and a delimiter. -/
inductive Text.IsItemMarker : Text → Prop
  | bullet {c : Char} : c ∈ ['-', '+', '*'] → IsItemMarker [c]
  | number {digits : Text} {d : Char} : digits ≠ [] → digits.length ≤ 9 →
      (∀ c ∈ digits, c ∈ "0123456789".toList) → d ∈ ['.', ')'] → IsItemMarker (digits ++ [d])

namespace Text

theorem width_eq_length_of_forall {cs : Text} (h : ∀ c ∈ cs, c.utf8Size = 1) :
    width cs = cs.length := by
  induction cs with
  | nil => rfl
  | cons c cs ih =>
    rw [width_cons, h c List.mem_cons_self, ih fun d hd => h d (List.mem_cons_of_mem _ hd),
      List.length_cons, Nat.add_comm]

namespace IsItemMarker

variable {cs : Text}

theorem mem_of_mem (h : IsItemMarker cs) {c : Char} (hc : c ∈ cs) :
    c ∈ "-+*0123456789.)".toList := by
  cases h with
  | bullet hb =>
    obtain rfl := List.mem_singleton.1 hc
    exact List.mem_append_left "0123456789.)".toList hb
  | number _ _ hdigits hd =>
    rcases List.mem_append.1 hc with hc | hc
    · exact List.mem_append_right "-+*".toList (List.mem_append_left ".)".toList (hdigits c hc))
    · obtain rfl := List.mem_singleton.1 hc
      exact List.mem_append_right "-+*0123456789".toList hd

/-- A marker has no blanks. -/
theorem not_isTrimmed (h : IsItemMarker cs) : ∀ c ∈ cs, isTrimmed c = false := by
  have hall : "-+*0123456789.)".toList.all (!isTrimmed ·) := by decide
  exact fun c hc => Bool.not_eq_true' _ ▸ List.all_eq_true.1 hall c (h.mem_of_mem hc)

theorem utf8Size_eq (h : IsItemMarker cs) : ∀ c ∈ cs, c.utf8Size = 1 := by
  have hall : "-+*0123456789.)".toList.all (·.utf8Size = 1) := by decide
  exact fun c hc => of_decide_eq_true (List.all_eq_true.1 hall c (h.mem_of_mem hc))

theorem width_eq_length (h : IsItemMarker cs) : width cs = cs.length :=
  width_eq_length_of_forall h.utf8Size_eq

theorem width_pos (h : IsItemMarker cs) : 0 < width cs := by
  rw [h.width_eq_length]
  cases h with
  | bullet => exact Nat.one_pos
  | number =>
    rw [List.length_append]
    exact Nat.succ_pos _

theorem width_le (h : IsItemMarker cs) : width cs ≤ 10 := by
  rw [h.width_eq_length]
  cases h with
  | bullet =>
    rw [List.length_singleton]
    omega
  | number _ hlength =>
    rw [List.length_append, List.length_singleton]
    omega

end IsItemMarker

end Text

/-- From `start` on the text has blanks, and behind them, at `place`, the marker of an item, which
    ends at `stop`. -/
structure Text.MarkedAt (cs : Text) (start place stop : Nat) : Prop where
  exists_parts : ∃ before blanks marker behind, cs = before ++ (blanks ++ (marker ++ behind)) ∧
    (∀ c ∈ blanks, Text.isTrimmed c) ∧ Text.IsItemMarker marker ∧ start = Text.width before ∧
    place = start + Text.width blanks ∧ stop = place + Text.width marker

theorem Text.MarkedAt.place_lt {cs : Text} {start place stop : Nat}
    (h : cs.MarkedAt start place stop) : place < stop := by
  obtain ⟨_, _, marker, _, -, -, hmarker, -, -, rfl⟩ := h.exists_parts
  exact Nat.lt_add_of_pos_right hmarker.width_pos

/-- No task marker goes over the end of a line. -/
def Source.HoldsMarks (source : Source) (marks : List TaskMark) : Prop :=
  ∀ mark ∈ marks, '\n' ∉ Text.slice source.text mark.span.start mark.span.stop

/-! ## Walking over a structure -/

namespace Node

mutual

/-- The walk over a node takes from one offset of the text to another. -/
inductive Spaced (cs : Text) : Nat → Node → Nat → Prop
  | text {p : Nat} {span : Span} : p ≤ span.start → span.start < span.stop →
      Spaced cs p (.text span) span.stop
  | task {p : Nat} {span : Span} {done : Bool} : Spaced cs p (.task span done) p
  | rule {p : Nat} {span : Span} : p ≤ span.start → span.start < span.stop →
      Spaced cs p (.rule span) span.stop
  | paragraph {p : Nat} {span : Span} {children : List Node} : p ≤ span.start →
      span.start < span.stop → SpacedAll cs span.start children span.stop →
      Spaced cs p (.block .paragraph span children) span.stop
  | leaf {p : Nat} {tag : Tag} {span : Span} {children : List Node} : tag ≠ .paragraph →
      (∀ start, tag ≠ .list start) → p ≤ span.start → span.start < span.stop →
      Spaced cs p (.block tag span children) span.stop
  /-- A list has items, and the number of the first one has nine digits at most. -/
  | list {p q : Nat} {start : Option Nat} {span : Span} {children : List Node} :
      (∀ n ∈ start, n ≤ 999999999) → children ≠ [] → SpacedItems cs p children q →
      Spaced cs p (.block (.list start) span children) q

/-- The walk over nodes, one behind the other. -/
inductive SpacedAll (cs : Text) : Nat → List Node → Nat → Prop
  | nil {p q : Nat} : p ≤ q → SpacedAll cs p [] q
  | cons {p m q : Nat} {node : Node} {nodes : List Node} : Spaced cs p node m →
      SpacedAll cs m nodes q → SpacedAll cs p (node :: nodes) q

/-- The walk over items. Each of them starts, behind blanks, with its marker. -/
inductive SpacedItems (cs : Text) : Nat → List Node → Nat → Prop
  | nil {p q : Nat} : p ≤ q → SpacedItems cs p [] q
  | cons {p place stop m q : Nat} {span : Span} {children nodes : List Node} :
      cs.MarkedAt span.start place stop → stop ≤ span.stop → p ≤ place →
      SpacedAll cs stop children m → SpacedItems cs m nodes q →
      SpacedItems cs p (.block .item span children :: nodes) q

end

mutual

/-- The task markers at and below a node. -/
def tasks : Node → List TaskMark
  | .text _ => []
  | .task span done => [⟨span, done⟩]
  | .rule _ => []
  | .block _ _ children => tasksOf children

/-- The task markers at and below nodes. -/
def tasksOf : List Node → List TaskMark
  | [] => []
  | node :: nodes => node.tasks ++ tasksOf nodes

end

theorem mem_tasksOf {mark : TaskMark} {nodes : List Node} :
    mark ∈ tasksOf nodes ↔ ∃ node ∈ nodes, mark ∈ node.tasks := by
  induction nodes with
  | nil => simp [tasksOf]
  | cons node nodes ih => simp [tasksOf, ih]

/-- A structure that is spaced out over a text, with all of its spans in the text, between
    characters. -/
structure Regular (source : Source) (forest : List Node) : Prop where
  admitted : Admitted (.of source) forest
  spaced : SpacedAll source.text 0 forest source.size
  tasks : source.HoldsMarks (tasksOf forest)

/-! ## Rules of the walk -/

variable {cs : Text} {p p' m q q' : Nat} {node : Node} {nodes others : List Node}

mutual

theorem Spaced.le {p q : Nat} {node : Node} : Spaced cs p node q → p ≤ q
  | .text h h' | .rule h h' | .leaf _ _ h h' => Nat.le_trans h (Nat.le_of_lt h')
  | .paragraph h h' _ => Nat.le_trans h (Nat.le_of_lt h')
  | .task => Nat.le_refl _
  | .list _ _ h => h.le

theorem SpacedAll.le {p q : Nat} {nodes : List Node} : SpacedAll cs p nodes q → p ≤ q
  | .nil h => h
  | .cons h h' => Nat.le_trans h.le h'.le

theorem SpacedItems.le {p q : Nat} {nodes : List Node} : SpacedItems cs p nodes q → p ≤ q
  | .nil h => h
  | .cons hm _ hp h h' =>
    Nat.le_trans hp (Nat.le_trans (Nat.le_of_lt hm.place_lt) (Nat.le_trans h.le h'.le))

end

/-- A heading, a block of code or another block is passed at once, whatever is in it. -/
theorem Spaced.of_tag {tag : Tag} {span : Span} {children : List Node}
    (htag : tag = .heading ∨ tag = .code ∨ tag = .other) (hp : p ≤ span.start)
    (hlt : span.start < span.stop) : Spaced cs p (.block tag span children) span.stop := by
  have hparagraph : tag ≠ .paragraph := by rcases htag with rfl | rfl | rfl <;> decide
  have hlist (start : Option Nat) : tag ≠ .list start := by
    rintro rfl
    rcases htag with h | h | h <;> cases h
  exact .leaf hparagraph hlist hp hlt

/-- The walk may have started earlier. -/
theorem SpacedItems.of_le (h : SpacedItems cs p nodes q) (hp : p' ≤ p) :
    SpacedItems cs p' nodes q := by
  cases h with
  | nil h => exact .nil (Nat.le_trans hp h)
  | cons hm hs hplace h h' => exact .cons hm hs (Nat.le_trans hp hplace) h h'

/-- The walk over nodes may have started earlier. -/
theorem SpacedAll.of_le (h : SpacedAll cs p nodes q) (hp : p' ≤ p) : SpacedAll cs p' nodes q := by
  induction nodes generalizing p p' with
  | nil =>
    cases h with
    | nil h => exact .nil (Nat.le_trans hp h)
  | cons node nodes ih =>
    cases h with
    | cons h h' =>
      cases h with
      | text h h'' => exact .cons (.text (Nat.le_trans hp h) h'') h'
      | task => exact .cons .task (ih h' hp)
      | rule h h'' => exact .cons (.rule (Nat.le_trans hp h) h'') h'
      | paragraph h h'' hc => exact .cons (.paragraph (Nat.le_trans hp h) h'' hc) h'
      | leaf ht ht' h h'' => exact .cons (.leaf ht ht' (Nat.le_trans hp h) h'') h'
      | list hstart hne hitems => exact .cons (.list hstart hne (hitems.of_le hp)) h'

/-- The walk may go on. -/
theorem SpacedAll.trans_le (h : SpacedAll cs p nodes q) (hq : q ≤ q') :
    SpacedAll cs p nodes q' := by
  induction nodes generalizing p with
  | nil =>
    cases h with
    | nil h => exact .nil (Nat.le_trans h hq)
  | cons node nodes ih =>
    cases h with
    | cons h h' => exact .cons h (ih h')

theorem SpacedAll.append (h : SpacedAll cs p nodes m) (h' : SpacedAll cs m others q) :
    SpacedAll cs p (nodes ++ others) q := by
  induction nodes generalizing p with
  | nil =>
    cases h with
    | nil h => exact h'.of_le h
  | cons node nodes ih =>
    cases h with
    | cons h h'' => exact .cons h (ih h'')

theorem SpacedAll.exists_of_append (h : SpacedAll cs p (nodes ++ others) q) :
    ∃ m, SpacedAll cs p nodes m ∧ SpacedAll cs m others q := by
  induction nodes generalizing p with
  | nil => exact ⟨p, .nil (Nat.le_refl _), h⟩
  | cons node nodes ih =>
    cases h with
    | cons h h' =>
      obtain ⟨m, hm, hm'⟩ := ih h'
      exact ⟨m, .cons h hm, hm'⟩

/-- A node behind others. -/
theorem SpacedAll.concat (h : SpacedAll cs p nodes m) (h' : Spaced cs m node q) :
    SpacedAll cs p (nodes ++ [node]) q :=
  h.append (.cons h' (.nil (Nat.le_refl _)))

theorem SpacedItems.append (h : SpacedItems cs p nodes m) (h' : SpacedItems cs m others q) :
    SpacedItems cs p (nodes ++ others) q := by
  induction nodes generalizing p with
  | nil =>
    cases h with
    | nil h => exact h'.of_le h
  | cons node nodes ih =>
    cases h with
    | cons hm hs hp h h'' => exact .cons hm hs hp h (ih h'')

/-- Nodes that are left out are passed over. -/
theorem SpacedAll.filter (h : SpacedAll cs p nodes q) (f : Node → Bool) :
    SpacedAll cs p (nodes.filter f) q := by
  induction nodes generalizing p with
  | nil => exact h
  | cons node nodes ih =>
    cases h with
    | cons h h' =>
      rw [List.filter_cons]
      split
      · exact .cons h (ih h')
      · exact (ih h').of_le h.le

mutual

/-- The lists of a structure that is spaced out hold items only. -/
theorem Spaced.nests {p q : Nat} {node : Node} : Spaced cs p node q → node.Nests
  | .text _ _ | .rule _ _ | .task | .paragraph _ _ _ => trivial
  | @Spaced.leaf _ _ tag _ _ _ ht _ _ => by
    cases tag with
    | list start => exact absurd rfl (ht start)
    | _ => exact trivial
  | .list _ _ h => h.nests

theorem SpacedAll.nests {p q : Nat} {nodes : List Node} : SpacedAll cs p nodes q → NestsAll nodes
  | .nil _ => trivial
  | .cons h h' => ⟨h.nests, h'.nests⟩

theorem SpacedItems.nests {p q : Nat} {nodes : List Node} :
    SpacedItems cs p nodes q → NestsItems nodes
  | .nil _ => trivial
  | .cons _ _ _ h h' => ⟨h.nests, h'.nests⟩

end

end Node

end Taskdown
