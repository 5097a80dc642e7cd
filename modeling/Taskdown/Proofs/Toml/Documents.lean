import Taskdown.Proofs.Toml.Scalars

/-!
# Documents are read as they are written

A document is written line by line, and read statement by statement.

* `Spells`: a text is read as some statements, whatever follows it. Headers and entries are
  (`spells_header`, `spells_entry`), and texts may be put together (`Spells.append`,
  `Spells.flatMap`).
* `IsPlace`: a path leads to some place in a table. What statements do there (`foldlM_assign`) does
  not depend on what is around it.
-/

namespace Taskdown.Toml

variable {cs cs' rest : Text} {statements statements' : List Statement}

/-! ## Statements -/

/-- A text is read as some statements, and then reading goes on behind it. -/
structure Spells (cs : Text) (statements : List Statement) : Prop where
  length_le : statements.length ≤ cs.length
  read (fuel : Nat) (rest : Text) :
    statements? (fuel + statements.length) (cs ++ rest) =
      (statements? fuel rest).map (statements ++ ·)

theorem spells_nil : Spells [] [] where
  length_le := Nat.le_refl 0
  read fuel rest := by
    rw [List.nil_append, List.length_nil, Nat.add_zero]
    cases statements? fuel rest <;> rfl

theorem Spells.append (h : Spells cs statements) (h' : Spells cs' statements') :
    Spells (cs ++ cs') (statements ++ statements') where
  length_le := by
    rw [List.length_append, List.length_append]
    exact Nat.add_le_add h.length_le h'.length_le
  read fuel rest := by
    rw [List.append_assoc, List.length_append, Nat.add_comm statements.length,
      ← Nat.add_assoc, h.read, h'.read, Option.map_map]
    congr 1
    funext more
    exact (List.append_assoc _ _ _).symm

theorem Spells.flatMap {α : Type} {text : α → Text} {statements : α → List Statement}
    (h : ∀ a, Spells (text a) (statements a)) (as : List α) :
    Spells (as.flatMap text) (as.flatMap statements) := by
  induction as with
  | nil => exact spells_nil
  | cons a as ih =>
    rw [List.flatMap_cons, List.flatMap_cons]
    exact (h a).append ih

/-- A line break where a statement could start means nothing. -/
theorem statements?_newline (fuel : Nat) (rest : Text) :
    statements? fuel ('\n' :: rest) = statements? fuel rest := by
  cases fuel with
  | zero => rfl
  | succ fuel => rfl

theorem Spells.newline (h : Spells cs statements) : Spells ('\n' :: cs) statements where
  length_le := Nat.le_succ_of_le h.length_le
  read fuel rest := (statements?_newline _ _).trans (h.read fuel rest)

/-- A line is read as one statement, if it starts with it and nothing follows it. -/
theorem spells_line {line : Text} {s : Statement}
    (hgap : ∀ rest, skipGap? false (line ++ rest) = some (line ++ rest)) (hne : line ≠ [])
    (hread : ∀ rest, statement? (line ++ '\n' :: rest) = some (s, '\n' :: rest)) :
    Spells (line ++ ['\n']) [s] where
  length_le := by simp
  read fuel rest := by
    have hends : endsStatement ('\n' :: rest) = true := rfl
    obtain ⟨c, line, rfl⟩ := List.exists_cons_of_ne_nil hne
    rw [List.append_assoc, List.singleton_append, List.length_singleton]
    have hstart := hgap ('\n' :: rest)
    have hs := hread rest
    rw [List.cons_append] at hstart hs ⊢
    simp only [statements?, hstart, hs, hends, Option.bind_eq_bind, Option.bind_some, if_true,
      statements?_newline]
    cases statements? fuel rest <;> rfl

/-- No gap starts where a key does. -/
theorem skipGap?_pathText (path : List Text) (key rest : Text) :
    ∃ d tail, d ≠ '[' ∧ pathText (path ++ [key]) ++ rest = d :: tail ∧
      skipGap? false (d :: tail) = some (d :: tail) := by
  obtain ⟨d, tail, hd, he⟩ := exists_cons_of_pathText path key rest
  have hne : d ≠ '#' ∧ d ≠ ' ' ∧ d ≠ '\t' ∧ d ≠ '\n' ∧ d ≠ '\r' ∧ d ≠ '[' := by
    refine ⟨?_, ?_, ?_, ?_, ?_, ?_⟩ <;> rintro rfl <;> exact absurd hd (by decide)
  obtain ⟨h₁, h₂, h₃, h₄, h₅, h₆⟩ := hne
  exact ⟨d, tail, h₆, he, by simp [skipGap?, Text.isSpaceTab, isLineBreak, h₁, h₂, h₃, h₄, h₅]⟩

theorem length_lt_pathText (path : List Text) (key rest : Text) :
    path.length < (pathText (path ++ [key]) ++ rest).length + 1 := by
  induction path with
  | nil => exact Nat.succ_pos _
  | cons part path ih =>
    rw [List.cons_append, pathText_cons_append, List.append_assoc, List.length_append,
      List.cons_append, List.length_cons, List.length_cons]
    omega

theorem spells_header (path : List Text) (key : Text) :
    Spells (headerLine (path ++ [key])) [.table path key] := by
  have hline : headerLine (path ++ [key]) = ('[' :: pathText (path ++ [key]) ++ [']']) ++
      ['\n'] := by
    simp [headerLine, pathText]
  rw [hline]
  refine spells_line (fun rest => rfl) (List.cons_ne_nil _ _) fun rest => ?_
  obtain ⟨d, tail, hd, he, -⟩ := skipGap?_pathText path key (']' :: '\n' :: rest)
  have hends : EndsKey (']' :: '\n' :: rest) := endsKey_cons rfl _
  have hclose : skipBlanks (']' :: '\n' :: rest) = ']' :: '\n' :: rest := rfl
  have hdot : (skipBlanks (']' :: '\n' :: rest)).head? ≠ some '.' := by
    rw [hclose, List.head?_cons]
    decide
  have hkey := key?_pathText path key (length_lt_pathText path key (']' :: '\n' :: rest)) hends hdot
  have hskip := skipBlanks_pathText path key (']' :: '\n' :: rest)
  rw [List.cons_append, List.cons_append, List.append_assoc, List.singleton_append]
  rw [he] at hkey hskip ⊢
  rw [List.length_cons] at hkey
  simp [statement?, hd, hskip, hkey, hclose]

theorem spells_entry {v : Value} (key : Text) (h : v.ReadsAs cs) :
    Spells (entryLine key cs) [.assign [] key v] := by
  have hline : entryLine key cs = (pathText ([] ++ [key]) ++ ' ' :: '=' :: ' ' :: cs) ++
      ['\n'] := by
    simp [entryLine, pathText_singleton]
  rw [hline]
  refine spells_line (fun rest => ?_) (by simp) fun rest => ?_
  · obtain ⟨d, tail, -, he, hgap⟩ := skipGap?_pathText [] key (' ' :: '=' :: ' ' :: cs ++ rest)
    rw [List.append_assoc, he, hgap]
  · obtain ⟨d, tail, hd, he, -⟩ :=
      skipGap?_pathText [] key (' ' :: '=' :: ' ' :: cs ++ '\n' :: rest)
    have hends : EndsKey (' ' :: '=' :: ' ' :: cs ++ '\n' :: rest) := endsKey_cons rfl _
    have hequals : skipBlanks (' ' :: '=' :: ' ' :: cs ++ '\n' :: rest) = '=' :: ' ' ::
      (cs ++ '\n' :: rest) := rfl
    have hdot : (skipBlanks (' ' :: '=' :: ' ' :: cs ++ '\n' :: rest)).head? ≠ some '.' := by
      rw [hequals, List.head?_cons]
      decide
    have hkey := key?_pathText [] key
      (length_lt_pathText [] key (' ' :: '=' :: ' ' :: cs ++ '\n' :: rest)) hends hdot
    have hvalue : skipBlanks (' ' :: (cs ++ '\n' :: rest)) = cs ++ '\n' :: rest := h.skipBlanks rest
    rw [List.append_assoc]
    rw [he, hequals, List.length_cons] at hkey
    rw [he]
    simp [statement?, keyValue?, hd, hkey, hvalue, h.value?]

/-- The statements of a text are those that it spells. -/
theorem ofText?_of_spells (h : Spells cs statements) (hmark : cs.head? ≠ some '\ufeff') :
    Table.ofText? cs = Table.ofStatements? statements := by
  have hdrop : dropByteOrderMark cs = cs := by
    rw [dropByteOrderMark.eq_def]
    split
    · exact absurd rfl hmark
    · rfl
  -- Every statement takes a character at least, so the fuel lasts to the end of the text.
  obtain ⟨fuel, hfuel⟩ := Nat.exists_eq_add_of_le h.length_le
  have hread := h.read (fuel + 1) []
  have hend : statements? (fuel + 1) [] = some [] := rfl
  have hall : fuel + 1 + statements.length = cs.length + 1 := by omega
  rw [hend, hall, Option.map_some, List.append_nil, List.append_nil] at hread
  rw [Table.ofText?, hdrop, hread, Option.bind_eq_bind, Option.bind_some]

/-! ## Places in a table -/

section Places

variable {path : List Text} {fill : Table → Table} {t u : Table} {key : Text}
    {entries before : List (Text × Value)}

/-- A key that has no value gets its value at the end. -/
theorem alter?_of_not_mem (h : key ∉ t.entries.map Prod.fst)
    (change : Option Value → Option Value) :
    t.alter? key change = (change none).map fun v => ⟨t.origin, t.entries ++ [(key, v)]⟩ := by
  obtain ⟨origin, entries⟩ := t
  have hentries : Table.alterEntries? key change entries = (change none).map fun v =>
      entries ++ [(key, v)] := by
    induction entries with
    | nil => rfl
    | cons e entries ih =>
      rw [List.map_cons, List.mem_cons, not_or] at h
      rw [Table.alterEntries?, if_neg (Ne.symm h.1), ih h.2, Option.map_map]
      rfl
  rw [Table.alter?, hentries, Option.map_map]
  rfl

/-- A value that a key has is replaced where it stands. -/
theorem alter?_of_mem {origin : Origin} {v : Value} (h : key ∉ before.map Prod.fst)
    (change : Option Value → Option Value) :
    Table.alter? ⟨origin, before ++ [(key, v)]⟩ key change =
      (change (some v)).map fun v => ⟨origin, before ++ [(key, v)]⟩ := by
  have hentries : Table.alterEntries? key change (before ++ [(key, v)]) =
      (change (some v)).map fun v => before ++ [(key, v)] := by
    induction before with
    | nil => exact if_pos rfl
    | cons e before ih =>
      rw [List.map_cons, List.mem_cons, not_or] at h
      rw [List.cons_append, Table.alterEntries?, if_neg (Ne.symm h.1), ih h.2, Option.map_map]
      rfl
  rw [Table.alter?, hentries, Option.map_map]
  rfl

/-- A way may be gone in two parts. -/
theorem alterAt?_append (isDotted : Bool) (change : Table → Option Table) (path path' : List Text)
    (t : Table) : t.alterAt? isDotted change (path ++ path') =
    t.alterAt? isDotted (Table.alterAt? isDotted change path') path := by
  induction path generalizing t with
  | nil => rfl
  | cons key path ih => simp only [List.cons_append, Table.alterAt?, ih]

/-- A path leads to a place in a table: a table that is filled in there is found there. -/
def IsPlace (path : List Text) (fill : Table → Table) : Prop :=
  ∀ t change, t.origin ≠ .inline → (fill t).alterAt? false change path = (change t).map fill

/-- The whole document is a place. -/
theorem isPlace_root : IsPlace [] id := fun t change _ => by
  rw [Option.map_id]
  rfl

/-- So is the last value of a table at a place. -/
theorem IsPlace.last {origin : Origin} (h : IsPlace path fill) (horigin : origin ≠ .inline)
    (hkey : key ∉ before.map Prod.fst) :
    IsPlace (path ++ [key]) fun u => fill ⟨origin, before ++ [(key, .table u)]⟩ :=
    fun u change hu => by
  have hstep : Table.alterAt? false change [key] ⟨origin, before ++ [(key, .table u)]⟩ =
      (change u).map fun u => ⟨origin, before ++ [(key, .table u)]⟩ := by
    rw [Table.alterAt?, alter?_of_mem hkey]
    simp [hu, Table.alterAt?]
    rfl
  rw [alterAt?_append, h _ _ horigin, hstep, Option.map_map]
  rfl

/-! ## Filling a place -/

/-- The statements that give keys their values. -/
def assignments (entries : List (Text × Value)) : List Statement :=
  entries.map fun e => .assign [] e.1 e.2

/-- New keys get their values at the end of the table that was opened last. -/
theorem foldlM_assignments (h : IsPlace path fill) (ht : t.origin ≠ .inline)
    (hkeys : ((t.entries ++ entries).map Prod.fst).Nodup) :
    (assignments entries).foldlM Draft.add? ⟨fill t, path⟩ =
    some ⟨fill ⟨t.origin, t.entries ++ entries⟩, path⟩ := by
  induction entries generalizing t with
  | nil =>
    obtain ⟨origin, entries⟩ := t
    rw [List.append_nil]
    rfl
  | cons e entries ih =>
    have hnew : e.1 ∉ t.entries.map Prod.fst := fun hmem => by
      rw [List.map_append, List.nodup_append] at hkeys
      exact hkeys.2.2 _ hmem _ List.mem_cons_self rfl
    have hadd : Draft.add? ⟨fill t, path⟩ (.assign [] e.1 e.2) =
        some ⟨fill ⟨t.origin, t.entries ++ [(e.1, e.2)]⟩, path⟩ := by
      have hassign : Table.assign? [] e.1 e.2 t = some ⟨t.origin, t.entries ++ [(e.1, e.2)]⟩ :=
        alter?_of_not_mem hnew _
      rw [Draft.add?, h t _ ht, hassign]
      rfl
    -- The place is the same for the rest, only what is in it has grown.
    have hmore := ih (t := ⟨t.origin, t.entries ++ [(e.1, e.2)]⟩) ht (by simpa using hkeys)
    rw [List.append_assoc, List.singleton_append] at hmore
    rw [assignments, List.map_cons, List.foldlM_cons, hadd]
    exact hmore

/-- A header and what stands below it make a new table. -/
theorem foldlM_section (h : IsPlace path fill) (ht : t.origin ≠ .inline)
    (hkey : key ∉ t.entries.map Prod.fst) (hkeys : (entries.map Prod.fst).Nodup)
    (current : List Text) :
    (.table path key :: assignments entries).foldlM Draft.add? ⟨fill t, current⟩ =
      some ⟨fill ⟨t.origin, t.entries ++ [(key, .table ⟨.header, entries⟩)]⟩, path ++ [key]⟩ := by
  have hopen : Draft.add? ⟨fill t, current⟩ (.table path key) =
      some ⟨fill ⟨t.origin, t.entries ++ [(key, .table (.empty .header))]⟩, path ++ [key]⟩ := by
    rw [Draft.add?, Table.openTable?, h t _ ht, alter?_of_not_mem hkey]
    rfl
  rw [List.foldlM_cons, hopen]
  -- The table that was opened is the next place, and is filled from empty.
  exact foldlM_assignments (h.last ht hkey) (t := .empty .header) (by decide) hkeys

end Places

end Taskdown.Toml
