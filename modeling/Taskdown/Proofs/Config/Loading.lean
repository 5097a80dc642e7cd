import Taskdown.Config.File
import Taskdown.Proofs.Toml.Documents

/-!
# Configurations are loaded as they are stated

A document states some fields of a configuration (`Config.IsStatedBy`). What is loaded has these
fields, and the defaults elsewhere (`Config.on`).

* `Priorities.ofList_of_perm`: the order in which priorities are given does not matter, and nothing
  is left of the default ones;
* `ofValue?_of_isStatedBy`: a table that states fields is read as the configuration with these
  fields;
* `isStatedBy_textOf`: the document that is written for some fields states them;
* `Config.load_of_stated`: what a document states is loaded, whichever document it is, and what is
  saved is loaded again.
-/

namespace Taskdown

/-! ## Priorities -/

namespace Priorities

variable {entries : List (Text × Int32)}

theorem isBefore_asymm {a b : Text} (h : Text.isBefore a b) : ¬ Text.isBefore b a := fun h' => by
  have := Text.isBefore_trans h h'
  rw [Text.isBefore_irrefl] at this
  cases this

/-- A new marker is put somewhere among the others. -/
theorem insertEntry_perm {marker : Text} {priority : Int32} (h : marker ∉ entries.map Prod.fst) :
    (insertEntry marker priority entries).Perm ((marker, priority) :: entries) := by
  induction entries with
  | nil => exact .refl _
  | cons e entries ih =>
    rw [List.map_cons, List.mem_cons, not_or] at h
    obtain ⟨m, p⟩ := e
    rw [insertEntry]
    split
    · exact .refl _
    rw [if_neg h.1]
    exact ((ih h.2).cons _).trans (.swap _ _ _)

theorem foldl_insert_perm {p : Priorities} (h : ((p.entries ++ entries).map Prod.fst).Nodup) :
    (entries.foldl (fun p (marker, priority) => p.insert marker priority) p).entries.Perm
    (p.entries ++ entries) := by
  induction entries generalizing p with
  | nil => rw [List.append_nil]; exact .refl _
  | cons e entries ih =>
    have hperm : (p.insert e.1 e.2).entries.Perm (e :: p.entries) := insertEntry_perm fun hmem => by
      rw [List.map_append, List.nodup_append] at h
      exact h.2.2 _ hmem _ List.mem_cons_self rfl
    have hall : ((p.insert e.1 e.2).entries ++ entries).Perm (p.entries ++ e :: entries) :=
      (hperm.append_right entries).trans List.perm_middle.symm
    exact (ih ((hall.map Prod.fst).nodup_iff.2 h)).trans hall

theorem nodup_markers (p : Priorities) : (p.entries.map Prod.fst).Nodup :=
  List.pairwise_map.2 (p.sorted.imp fun {a b} h he => by
    rw [he, Text.isBefore_irrefl] at h
    cases h)

/-- The order of the entries does not matter. -/
theorem ofList_of_perm {p : Priorities} (h : entries.Perm p.entries) : ofList entries = p := by
  -- Both lists are sorted, without repetition, and have the same entries.
  have hnodup : ((([] : List (Text × Int32)) ++ entries).map Prod.fst).Nodup :=
    (h.map Prod.fst).nodup_iff.2 p.nodup_markers
  have hperm : (ofList entries).entries.Perm p.entries :=
    (foldl_insert_perm (p := default) hnodup).trans h
  exact ext (hperm.eq_of_pairwise (fun _ _ _ _ hab hba => absurd hba (isBefore_asymm hab))
    (ofList entries).sorted p.sorted)

end Priorities

/-! ## Fields -/

namespace Config

open Toml

variable {c : Config} {states : Field → Bool} {f : Field} {v : Value}

/-- A priority as a document gives it. -/
def priorityEntry (e : Text × Int32) : Text × Value := (e.1, .integer e.2.toInt)

/-- The value of a field. -/
def valueOf (c : Config) : Field → Value
  | .placement => .string c.placement.name.toList
  | .taskCase => .string c.taskCase.name.toList
  | .prioritized => .boolean c.prioritized
  | .priorities => .table ⟨.header, c.priorities.entries.map priorityEntry⟩
  | .defaultPriority => .integer c.defaultPriority.toInt
  | .orderedPriority => .integer c.orderedPriority.toInt
  | .maxBlankLines => .integer c.maxBlankLines.toNat

/-- A value says what a configuration has in a field. The priorities may come in any order and in
    any kind of table. -/
inductive Says (c : Config) : Field → Value → Prop
  | value (f : Field) : Says c f (c.valueOf f)
  | priorities (origin : Origin) {entries : List (Text × Int32)}
    (h : entries.Perm c.priorities.entries) :
    Says c .priorities (.table ⟨origin, entries.map priorityEntry⟩)

/-- A table states some fields, and does not state the others. Whatever else is in it does not
    matter. -/
structure IsStatedBy (c : Config) (states : Field → Bool) (t : Table) : Prop where
  stated : ∀ f, states f → ∃ v, t.lookup f.name = some v ∧ c.Says f v
  missing : ∀ f, states f = false → t.lookup f.name = none

/-- Some fields of a configuration, with the defaults for the others. -/
def on (c : Config) (states : Field → Bool) : Config where
  placement := if states .placement then c.placement else standard.placement
  taskCase := if states .taskCase then c.taskCase else standard.taskCase
  prioritized := if states .prioritized then c.prioritized else standard.prioritized
  priorities := if states .priorities then c.priorities else standard.priorities
  defaultPriority := if states .defaultPriority then c.defaultPriority else standard.defaultPriority
  orderedPriority := if states .orderedPriority then c.orderedPriority else standard.orderedPriority
  maxBlankLines := if states .maxBlankLines then c.maxBlankLines else standard.maxBlankLines

theorem on_true (c : Config) : c.on (fun _ => true) = c := rfl

theorem int32?_toInt (n : Int32) : int32? (.integer n.toInt) = some n := by
  have hleast : -0x80000000 ≤ n.toInt := n.le_toInt
  have hgreatest : n.toInt < 0x80000000 := n.toInt_lt
  rw [int32?, if_pos ⟨hleast, by omega⟩, Int32.ofInt_toInt]

theorem uint64?_toNat (n : UInt64) : uint64? (.integer n.toNat) = some n := by
  have hlt : n.toNat < 0x10000000000000000 := n.toNat_lt
  rw [uint64?, if_pos ⟨by omega, by omega⟩, Int.toNat_natCast, UInt64.ofNat_toNat]

theorem priorities?_of_perm {origin : Origin} {entries : List (Text × Int32)}
    (h : entries.Perm c.priorities.entries) :
    priorities? (.table ⟨origin, entries.map priorityEntry⟩) = some c.priorities := by
  have hread : (entries.map priorityEntry).mapM (fun e => (int32? e.2).map (e.1, ·)) =
      some entries := by
    have hone : (fun e : Text × Value => (int32? e.2).map (e.1, ·)) ∘ priorityEntry =
        fun e => pure e := by
      funext e
      simp only [Function.comp_apply, priorityEntry, int32?_toInt]
      rfl
    rw [List.mapM_map, hone, List.mapM_pure, List.map_id']
    rfl
  rw [priorities?, hread, Option.map_some, Priorities.ofList_of_perm h]

/-- A field is read as it is stated, or has its default. -/
theorem IsStatedBy.stated? {t : Table} {α : Type} {read : Value → Option α} {x missing : α}
    (h : c.IsStatedBy states t) (hread : ∀ v, c.Says f v → read v = some x) :
    Config.stated? read missing (t.lookup f.name) = some (if states f then x else missing) := by
  cases hf : states f with
  | false =>
    rw [h.missing f hf]
    rfl
  | true =>
    obtain ⟨v, hv, hsays⟩ := h.stated f hf
    rw [hv]
    exact hread v hsays

/-- What is read from a table that states some fields. -/
theorem ofValue?_of_isStatedBy {t : Table} (h : c.IsStatedBy states t) :
    ofValue? (.table t) = some (c.on states) := by
  have hplacement : ∀ v, c.Says .placement v → choice? Placement.ofName? v = some c.placement := by
    rintro _ ⟨⟩
    rw [valueOf, choice?, String.ofList_toList, Placement.ofName?_name]
  have htaskCase : ∀ v, c.Says .taskCase v → choice? TaskCase.ofName? v = some c.taskCase := by
    rintro _ ⟨⟩
    rw [valueOf, choice?, String.ofList_toList, TaskCase.ofName?_name]
  have hprioritized : ∀ v, c.Says .prioritized v → boolean? v = some c.prioritized := by
    rintro _ ⟨⟩
    rfl
  have hpriorities : ∀ v, c.Says .priorities v → priorities? v = some c.priorities := by
    intro v hv
    cases hv with
    | value => exact priorities?_of_perm (.refl _)
    | priorities origin h => exact priorities?_of_perm h
  have hdefault : ∀ v, c.Says .defaultPriority v → int32? v = some c.defaultPriority := by
    rintro _ ⟨⟩
    exact int32?_toInt _
  have hordered : ∀ v, c.Says .orderedPriority v → int32? v = some c.orderedPriority := by
    rintro _ ⟨⟩
    exact int32?_toInt _
  have hblank : ∀ v, c.Says .maxBlankLines v → uint64? v = some c.maxBlankLines := by
    rintro _ ⟨⟩
    exact uint64?_toNat _
  -- Every field is looked up by its name, and read with what its type asks for.
  rw [ofValue?, ofFields?]
  rw [h.stated? hplacement, h.stated? htaskCase, h.stated? hprioritized, h.stated? hpriorities,
    h.stated? hdefault, h.stated? hordered, h.stated? hblank]
  rfl

/-! ## Documents -/

/-- The entries of a document that states some fields, each of them once. -/
def entriesOf (c : Config) (fields : List Field) : List (Text × Value) :=
  fields.map fun f => (f.name, c.valueOf f)

theorem name_inj {f g : Field} : f.name = g.name ↔ f = g := by
  refine ⟨fun h => ?_, congrArg _⟩
  have hall : ∀ f ∈ Field.all, ∀ g ∈ Field.all, f.name = g.name → f = g := by decide
  exact hall f (by cases f <;> decide) g (by cases g <;> decide) h

theorem lookup_entriesOf (origin : Origin) (fields : List Field) (f : Field) :
    Table.lookup ⟨origin, c.entriesOf fields⟩ f.name =
      if f ∈ fields then some (c.valueOf f) else none := by
  induction fields with
  | nil => rfl
  | cons g fields ih =>
    rw [Table.lookup] at ih ⊢
    rw [entriesOf, List.map_cons, List.lookup_cons]
    by_cases hfg : f = g
    · subst hfg
      rw [beq_self_eq_true, if_pos List.mem_cons_self]
    · have hname : (f.name == g.name) = false := beq_false_of_ne (mt name_inj.1 hfg)
      rw [hname]
      refine ih.trans ?_
      simp [hfg]

/-- The fields that have a line of their own. -/
def lineFields (states : Field → Bool) : List Field :=
  (Field.all.filter states).filter (· ≠ .priorities)

/-- The fields that are stated, in the order in which they are written. -/
def statedFields (states : Field → Bool) : List Field :=
  lineFields states ++ if states .priorities then [.priorities] else []

theorem mem_statedFields : f ∈ statedFields states ↔ states f := by
  have hall : f ∈ Field.all := by cases f <;> decide
  by_cases hf : f = .priorities
  · subst hf
    cases h : states .priorities <;> simp [statedFields, lineFields, h]
  · cases h : states .priorities <;> simp [statedFields, lineFields, h, hall, hf]

theorem isStatedBy_entriesOf (c : Config) (states : Field → Bool) (origin : Origin) :
    c.IsStatedBy states ⟨origin, c.entriesOf (statedFields states)⟩ where
  stated f hf := ⟨_, by rw [lookup_entriesOf, if_pos (mem_statedFields.2 hf)], .value f⟩
  missing f hf := by rw [lookup_entriesOf, if_neg (by rw [mem_statedFields, hf]; decide)]

/-! ### What is written -/

theorem readsAs_int32 (n : Int32) : (Value.integer n.toInt).ReadsAs (integerText n.toInt) := by
  have hleast : -0x80000000 ≤ n.toInt := n.le_toInt
  have hgreatest : n.toInt < 0x80000000 := n.toInt_lt
  exact readsAs_integer (by rw [leastInteger]; omega) (by rw [greatestInteger]; omega)

theorem spells_fieldLine (c : Config) (f : Field) :
    Spells (c.fieldLine f) (assignments (c.entriesOf ([f].filter (· ≠ .priorities)))) := by
  cases f with
  | placement | taskCase => exact spells_entry _ (readsAs_string _)
  | prioritized => exact spells_entry _ (readsAs_boolean _)
  | priorities => exact spells_nil
  | defaultPriority | orderedPriority => exact spells_entry _ (readsAs_int32 _)
  | maxBlankLines =>
    have hlt : c.maxBlankLines.toNat < 0x10000000000000000 := c.maxBlankLines.toNat_lt
    exact spells_entry _ (readsAs_integer (by rw [leastInteger]; omega)
      (by rw [greatestInteger]; omega))

theorem spells_fieldLines (c : Config) (fields : List Field) :
    Spells (fields.flatMap c.fieldLine)
    (assignments (c.entriesOf (fields.filter (· ≠ .priorities)))) := by
  have hstatements : assignments (c.entriesOf (fields.filter (· ≠ .priorities))) =
      fields.flatMap fun f => assignments (c.entriesOf ([f].filter (· ≠ .priorities))) := by
    induction fields with
    | nil => rfl
    | cons f fields ih =>
      rw [List.flatMap_cons, ← ih, ← List.singleton_append, List.filter_append]
      simp [assignments, entriesOf]
  rw [hstatements]
  exact Spells.flatMap c.spells_fieldLine fields

theorem spells_prioritiesText (c : Config) : Spells c.prioritiesText
    (.table [tableName] Field.priorities.name ::
      assignments (c.priorities.entries.map priorityEntry)) := by
  have hheader : Spells ('\n' :: headerLine [tableName, Field.priorities.name])
      [.table [tableName] Field.priorities.name] :=
    (spells_header [tableName] Field.priorities.name).newline
  have hentries : Spells
      (c.priorities.entries.flatMap fun (marker, priority) =>
        entryLine marker (integerText priority.toInt))
      (assignments (c.priorities.entries.map priorityEntry)) := by
    have hstatements : assignments (c.priorities.entries.map priorityEntry) =
        c.priorities.entries.flatMap fun e => [.assign [] e.1 (.integer e.2.toInt)] := by
      rw [assignments, List.map_map, List.map_eq_flatMap]
      rfl
    rw [hstatements]
    exact Spells.flatMap (fun e => spells_entry e.1 (readsAs_int32 e.2)) c.priorities.entries
  exact hheader.append hentries

/-- The document that is written for some fields has a table that states them. -/
theorem ofText?_textOf (c : Config) (states : Field → Bool) :
    Table.ofText? (c.textOf states) =
      some ⟨.header, [(tableName, .table ⟨.header, c.entriesOf (statedFields states)⟩)]⟩ := by
  have hlines : Spells (headerLine [tableName] ++ (Field.all.filter states).flatMap c.fieldLine)
      (.table [] tableName :: assignments (c.entriesOf (lineFields states))) :=
    (spells_header [] tableName).append (c.spells_fieldLines _)
  have hnames : ((c.entriesOf (lineFields states)).map Prod.fst).Nodup := by
    have hsublist : (lineFields states).Sublist Field.all :=
      List.filter_sublist.trans List.filter_sublist
    have hall : (Field.all.map Field.name).Nodup := by decide
    rw [entriesOf, List.map_map]
    exact (hsublist.map _).nodup hall
  have hformat :
      (Statement.table [] tableName :: assignments (c.entriesOf (lineFields states))).foldlM
        Draft.add? .start =
      some ⟨⟨.header, [(tableName, .table ⟨.header, c.entriesOf (lineFields states)⟩)]⟩,
        [tableName]⟩ :=
    foldlM_section isPlace_root (t := .empty .header) (by decide) List.not_mem_nil hnames []
  have hmark : (c.textOf states).head? ≠ some '\ufeff' := by
    have hhead : (c.textOf states).head? = some '[' := rfl
    rw [hhead]
    decide
  cases hpriorities : states .priorities with
  | false =>
    have hstated : statedFields states = lineFields states := by
      rw [statedFields, hpriorities]
      exact List.append_nil _
    have htext : Spells (c.textOf states)
        (.table [] tableName :: assignments (c.entriesOf (lineFields states))) := by
      rw [textOf, hpriorities]
      exact (List.append_nil _).symm ▸ hlines
    rw [ofText?_of_spells htext hmark, Table.ofStatements?, hformat, hstated]
    rfl
  | true =>
    have hstated : c.entriesOf (statedFields states) =
        c.entriesOf (lineFields states) ++ [(Field.priorities.name, c.valueOf .priorities)] := by
      rw [statedFields, hpriorities, entriesOf, List.map_append]
      rfl
    have htext : Spells (c.textOf states)
        (.table [] tableName :: assignments (c.entriesOf (lineFields states)) ++ .table [tableName]
          Field.priorities.name :: assignments (c.priorities.entries.map priorityEntry)) := by
      rw [textOf, hpriorities]
      exact hlines.append c.spells_prioritiesText
    -- The table of the priorities is opened in that of the options, which is the last value of the
    -- root.
    have hplace : IsPlace [tableName] fun u => id ⟨.header, [] ++ [(tableName, .table u)]⟩ :=
      isPlace_root.last (by decide) List.not_mem_nil
    have hname : Field.priorities.name ∉ (c.entriesOf (lineFields states)).map Prod.fst := by
      rw [entriesOf, List.map_map, List.mem_map]
      rintro ⟨f, hf, hname⟩
      have hpriorities : f = .priorities := name_inj.1 hname
      simp [lineFields, hpriorities] at hf
    have hmarkers : ((c.priorities.entries.map priorityEntry).map Prod.fst).Nodup := by
      rw [List.map_map]
      exact c.priorities.nodup_markers
    have hheader : Origin.header ≠ .inline := by decide
    have hsection := foldlM_section hplace (t := ⟨.header, c.entriesOf (lineFields states)⟩)
      hheader hname hmarkers [tableName]
    rw [ofText?_of_spells htext hmark, Table.ofStatements?, List.foldlM_append, hformat, hstated]
    exact congrArg (Option.map Draft.root) hsection

/-! ## Files -/

/-- A file is read as the text that was written. -/
theorem text?_ofText (cs : Text) : (FileState.ofText cs).text? = some cs := by
  have hutf8 : String.fromUTF8? (String.ofList cs).toUTF8 = some (String.ofList cs) :=
    dif_pos (String.isValidUTF8 _)
  rw [FileState.ofText, FileState.text?, hutf8, Option.map_some, String.toList_ofList]

theorem load_ofText {cs : Text} (h : ofText? cs = some c) : load (.ofText cs) = .ok (some c) := by
  have htext := text?_ofText cs
  rw [FileState.ofText] at htext ⊢
  simp only [load, htext, h]

/-- Whatever document states some fields of a configuration, what is loaded from it has these
    fields, and the defaults elsewhere. Such a document can be written for any fields of any
    configuration, and what is saved is loaded again. -/
theorem load_of_stated (c : Config) (states : Field → Bool) :
    (∀ cs root t, Table.ofText? cs = some root → root.lookup tableName = some (.table t) →
      c.IsStatedBy states t → load (.ofText cs) = .ok (some (c.on states))) ∧
    (∃ root t, Table.ofText? (c.textOf states) = some root ∧
      root.lookup tableName = some (.table t) ∧ c.IsStatedBy states t) ∧
    load (.ofText (c.textOf states)) = .ok (some (c.on states)) ∧
    load (.ofText c.text) = .ok (some c) := by
  have hload : ∀ states cs root t, Table.ofText? cs = some root →
      root.lookup tableName = some (.table t) → c.IsStatedBy states t →
      load (.ofText cs) = .ok (some (c.on states)) := by
    intro states cs root t hroot ht h
    refine load_ofText ?_
    rw [ofText?, hroot, Option.bind_some, ofTable?, ht]
    exact ofValue?_of_isStatedBy h
  have hwritten : ∀ states, load (.ofText (c.textOf states)) = .ok (some (c.on states)) :=
      fun states =>
    hload states _ _ _ (ofText?_textOf c states) rfl (isStatedBy_entriesOf c states _)
  have hall : load (.ofText c.text) = .ok (some (c.on fun _ => true)) := hwritten fun _ => true
  rw [on_true] at hall
  exact ⟨hload states, ⟨_, _, ofText?_textOf c states, rfl, isStatedBy_entriesOf c states _⟩,
    hwritten states, hall⟩

end Config

end Taskdown
