import SchemaScript.Ddl.Table
import SchemaScript.Proofs.Catalog.Entries
import SchemaScript.Proofs.Sql.Quoting

/-!
# Keys and checks inside a table's statement

A column's definition holds the word of a key once or not at all, and it does exactly if one constraint is
rendered inside the statement for it (`count_keyWord`). The line of a check occurs once (`count_checkLine`).
-/

namespace SchemaScript

/-! ## Options of a column -/

/-- The word by which a column's definition declares a key of the kind. -/
def ConstraintKind.keyWord? : ConstraintKind → Option String
  | .primaryKey => some "PRIMARY KEY"
  | .unique => some "UNIQUE"
  | _ => none

/-- What a column's definition says about where values come from. -/
def Column.generationOptions (c : Column) (target : Option String) : List String :=
  if c.identity.enabled.isGiven then
    ["GENERATED " ++ c.identity.generation.givenOr "BY DEFAULT" ++ " AS IDENTITY"]
  else
    match c.default.text? with
    | some d => if c.isSerial then [] else ["DEFAULT " ++ Ddl.defaultText d target]
    | none => []

theorem Column.not_mem_generationOptions {c : Column} {target : Option String} {word : String}
    (first : Char) (hword : word.toList.head? = some first) (hfirst : first ≠ 'G' ∧ first ≠ 'D') :
    word ∉ c.generationOptions target := by
  have hne (lead rest : String) {l : Char} (hlead : lead.toList.head? = some l) (hl : first ≠ l)
      : word ≠ lead ++ rest := by
    rintro rfl
    rw [String.toList_append, List.head?_append, hlead] at hword
    exact hl (by simpa using hword.symm)
  unfold generationOptions
  intro hmem
  split at hmem
  · rw [List.mem_singleton, String.append_assoc] at hmem
    exact hne "GENERATED " _ rfl hfirst.1 hmem
  · split at hmem
    · split at hmem
      · simp at hmem
      · exact hne "DEFAULT " _ rfl hfirst.2 (List.mem_singleton.mp hmem)
    · simp at hmem

namespace Table

variable {t : Table} {target : Option String} {column : Column} {kind : ConstraintKind}
  {word key : String} {c : Constraint}

theorem columnOptions_eq : t.columnOptions target column =
    (if (t.soleConstraint? column.name .primaryKey).isSome then ["PRIMARY KEY"] else []) ++
      column.generationOptions target ++
      (if !column.nullable.isGiven && !t.primaryKeyColumns.contains column.name then ["NOT NULL"]
        else []) ++
      (if (t.soleConstraint? column.name .unique).isSome then ["UNIQUE"] else []) := rfl

/-- A column's definition holds the word of a key once if a constraint stands behind it, and otherwise
not at all. -/
theorem count_keyWord (hword : kind.keyWord? = some word) :
    (t.columnOptions target column).count word =
      if (t.soleConstraint? column.name kind).isSome then 1 else 0 := by
  have hcount (first : Char) (hhead : word.toList.head? = some first)
      (hfirst : first ≠ 'G' ∧ first ≠ 'D') : (column.generationOptions target).count word = 0 :=
    List.count_eq_zero.mpr (Column.not_mem_generationOptions first hhead hfirst)
  rw [columnOptions_eq, List.count_append, List.count_append, List.count_append]
  cases kind with
  | primaryKey =>
    obtain rfl : "PRIMARY KEY" = word := by simpa [ConstraintKind.keyWord?] using hword
    rw [hcount 'P' rfl (by decide)]
    split_ifs <;> rfl
  | unique =>
    obtain rfl : "UNIQUE" = word := by simpa [ConstraintKind.keyWord?] using hword
    rw [hcount 'U' rfl (by decide)]
    split_ifs <;> rfl
  | foreignKey => simp [ConstraintKind.keyWord?] at hword
  | check => simp [ConstraintKind.keyWord?] at hword
  | exclusion => simp [ConstraintKind.keyWord?] at hword

/-- Nulls are barred by a word unless the column is part of the primary key. -/
theorem mem_notNull_iff : "NOT NULL" ∈ t.columnOptions target column ↔
    column.nullable.isGiven = false ∧ column.name ∉ t.primaryKeyColumns := by
  have hgeneration : "NOT NULL" ∉ column.generationOptions target :=
    Column.not_mem_generationOptions 'N' rfl (by decide)
  have hother {flag : Bool} {option : String} (hne : "NOT NULL" ≠ option) :
      "NOT NULL" ∉ (if flag then [option] else []) := by
    cases flag <;> simp [hne]
  rw [columnOptions_eq]
  simp [hgeneration, hother]

/-! ## The constraint behind a key -/

/-- The constraint kept under `key` is of the kind and covers this column alone. -/
structure Covers (t : Table) (kind : ConstraintKind) (column : Field String) (key : String)
    (c : Constraint) : Prop where
  kept : t.constraints.get? key = some c
  kind : c.kind = kind
  alone : c.columns.map (·.name) = [column]

theorem covers_of_soleConstraint? {name : Field String} (h : t.soleConstraint? name kind = some key) :
    ∃ c, t.Covers kind name key c := by
  obtain ⟨entry, hentry, rfl⟩ := Option.map_eq_some_iff.mp h
  have hfound := List.find?_some hentry
  simp only [Bool.and_eq_true, beq_iff_eq] at hfound
  exact ⟨entry.2, Entries.get?_of_mem_sorted (List.mem_of_find?_eq_some hentry), hfound.1, hfound.2⟩

/-- Of the constraints that cover a column alone, the one found first is inside the statement. -/
theorem Covers.isInline_iff {name : Field String} (h : t.Covers kind name key c)
    (hword : kind.keyWord? = some word) :
    t.isInline key c ↔ t.soleConstraint? name kind = some key := by
  obtain ⟨k, hk, rfl⟩ := List.map_eq_singleton_iff.mp h.alone
  have hkind := h.kind
  cases kind <;> simp [ConstraintKind.keyWord?] at hword <;> simp [isInline, hkind, hk]

theorem covers_of_isInline (hword : c.kind.keyWord? = some word)
    (hkept : t.constraints.get? key = some c) (h : t.isInline key c) :
    ∃ k, c.columns = [k] ∧ t.Covers c.kind k.name key c := by
  obtain ⟨k, hk⟩ : ∃ k, c.columns = [k] := by
    unfold isInline at h
    cases hkind : c.kind <;> simp [hkind, ConstraintKind.keyWord?] at hword <;> simp only [hkind] at h
    all_goals
      split at h
      · next k hk => exact ⟨k, hk⟩
      · contradiction
  exact ⟨k, hk, hkept, rfl, by simp [hk]⟩

/-- The primary key whose columns bar nulls by themselves is one of the table's constraints. -/
theorem exists_primaryKey {name : Field String} (h : name ∈ t.primaryKeyColumns) :
    ∃ key c, t.constraints.get? key = some c ∧ c.kind = .primaryKey ∧ ∃ k ∈ c.columns, k.name = name := by
  unfold primaryKeyColumns at h
  split at h
  · next c hc =>
    obtain ⟨entry, hentry, rfl⟩ := List.mem_map.mp (List.mem_of_find?_eq_some hc)
    have hkind := List.find?_some hc
    exact ⟨entry.1, entry.2, Entries.get?_of_mem_sorted hentry, by simpa using hkind,
      List.mem_map.mp h⟩
  · simp at h

/-! ## Lines of the statement -/

theorem isSome_text? {α : Type} {f : Field α} (h : f.isGiven) : f.text?.isSome := by
  have hne : f.stored ≠ .null := by
    intro hnull
    simp [Field.isGiven, hnull, Json.isNothing] at h
  simp [Field.text?, hne]

theorem isSome_typeText? (target : Option String) (h : column.dataType.isGiven) :
    (column.typeText? target).isSome := by
  have hdeclared : column.declaredType.isSome := by
    unfold Column.declaredType
    split
    · next huser => exact isSome_text? (Bool.and_eq_true_iff.mp huser).2
    · exact isSome_text? h
  obtain ⟨base, hbase⟩ := Option.isSome_iff_exists.mp hdeclared
  have hdrop (s : String) : (Sql.dropSchema (some s) target).isSome := by
    unfold Sql.dropSchema
    split
    · split
      · rfl
      · split <;> rfl
    · rfl
  unfold Column.typeText?
  simp only [hbase, Option.map_some]
  split
  · rfl
  · split
    · rfl
    · rfl
    · split <;> rfl
    · exact hdrop _

/-- A column with a name and a type has its line. -/
theorem exists_columnText? (t : Table) (target : Option String) (hname : column.name.isGiven)
    (htype : column.dataType.isGiven) :
    ∃ type, column.typeText? target = some type ∧ t.columnText? target column =
      some (" ".intercalate ([Sql.quoteName column.name.spelled, type] ++
        t.columnOptions target column)) := by
  obtain ⟨type, htype⟩ := Option.isSome_iff_exists.mp (isSome_typeText? target htype)
  obtain ⟨name, hname⟩ := Option.isSome_iff_exists.mp (isSome_text? hname)
  have hspelled : column.name.spelled = name := by
    unfold Field.text? at hname
    split at hname
    · contradiction
    · exact Option.some.inj hname
  refine ⟨type, htype, ?_⟩
  rw [columnText?, hname, htype, hspelled]

/-- The line of a check, which begins with its name. -/
theorem checkLine?_eq {key : String} (hkind : c.kind = .check) (hname : c.name = (key : Field String))
    (hkey : key ≠ "") {condition : String} (hcondition : c.condition.given = some condition) :
    checkLine? c = some ("CONSTRAINT " ++ Sql.quoteName key ++ " " ++ Ddl.checkText condition) := by
  rw [checkLine?, hkind, hcondition, hname]
  simp [Field.given_text, hkey]

/-- Columns have names of their own and types; constraints are kept under their names, belong to the table,
cover columns of it and refer to columns by names. -/
structure WellKept (t : Table) : Prop where
  named : t.name.isGiven
  columns : ∀ column ∈ t.columns, column.name.isGiven ∧ column.dataType.isGiven
  distinct : (t.columns.map (·.name)).Nodup
  kept : ∀ key c, t.constraints.get? key = some c →
    key ≠ "" ∧ c.name = (key : Field String) ∧ c.table = t.name
  covered : ∀ key c, t.constraints.get? key = some c → ∀ k ∈ c.columns,
    k.name ∈ t.columns.map (·.name)
  referenced : ∀ key c, t.constraints.get? key = some c → ∀ k ∈ c.referencedColumns, k.name.isGiven

theorem WellKept.isComplete (h : t.WellKept) : t.isComplete := by
  simp only [Table.isComplete, h.named, Bool.true_and, List.all_eq_true, Bool.and_eq_true]
  exact h.columns

/-- A column that is named somewhere is one of the table's, and no other has its name. -/
theorem WellKept.exists_column (h : t.WellKept) {name : Field String}
    (hname : name ∈ t.columns.map (·.name)) :
    ∃ column, t.columns.filter (·.name == name) = [column] := by
  obtain ⟨column, hcolumn, rfl⟩ := List.mem_map.mp hname
  obtain ⟨before, after, hsplit⟩ := List.append_of_mem hcolumn
  have hdistinct := List.pairwise_map.mp h.distinct
  rw [hsplit, List.pairwise_append, List.pairwise_cons] at hdistinct
  obtain ⟨-, ⟨hafter, -⟩, hbefore⟩ := hdistinct
  have hnone {columns : List Column} (hne : ∀ c ∈ columns, c.name ≠ column.name) :
      columns.filter (·.name == column.name) = [] :=
    List.filter_eq_nil_iff.mpr fun c hc => by simpa using hne c hc
  refine ⟨column, ?_⟩
  rw [hsplit, List.filter_append, hnone fun c hc => hbefore c hc column (by simp),
    List.filter_cons_of_pos (by simp), hnone fun c hc => (hafter c hc).symm, List.nil_append]

theorem WellKept.mem_lines (h : t.WellKept) (target : Option String) (hcolumn : column ∈ t.columns) :
    ∃ type, " ".intercalate ([Sql.quoteName column.name.spelled, type] ++
      t.columnOptions target column) ∈ t.lines target := by
  obtain ⟨hname, htype⟩ := h.columns column hcolumn
  obtain ⟨type, -, htext⟩ := exists_columnText? t target hname htype
  exact ⟨type, List.mem_append_left _
    (List.mem_filterMap.mpr ⟨column, Order.mem_sort.mpr hcolumn, htext⟩)⟩

theorem WellKept.exists_checkLine? (h : t.WellKept) (hkept : t.constraints.get? key = some c)
    {line : String} (hline : checkLine? c = some line) :
    ∃ condition, line = "CONSTRAINT " ++ Sql.quoteName key ++ " " ++ Ddl.checkText condition := by
  obtain ⟨hkey, hname, -⟩ := h.kept key c hkept
  have hcheck : c.kind = .check ∧ ∃ condition, c.condition.given = some condition := by
    unfold checkLine? at hline
    split at hline
    · next condition hkind hcondition => exact ⟨hkind, condition, hcondition⟩
    · contradiction
  obtain ⟨hkind, condition, hcondition⟩ := hcheck
  rw [checkLine?_eq hkind hname hkey hcondition] at hline
  exact ⟨condition, (Option.some.inj hline).symm⟩

/-- Checks under different names have different lines. -/
theorem WellKept.checkLine?_inj (h : t.WellKept) {key' : String} {c' : Constraint}
    (hkept : t.constraints.get? key = some c) (hkept' : t.constraints.get? key' = some c')
    {line : String} (hline : checkLine? c = some line) (hline' : checkLine? c' = some line) :
    key = key' := by
  obtain ⟨condition, rfl⟩ := h.exists_checkLine? hkept hline
  obtain ⟨condition', heq⟩ := h.exists_checkLine? hkept' hline'
  have hlists := congrArg String.toList heq
  simp only [String.append_assoc, String.toList_append] at hlists
  exact (Sql.quoteName_append_inj (d := ' ') (by decide) (List.append_cancel_left hlists)).1

/-- No column's definition looks like a check. -/
theorem WellKept.not_mem_columnLines (h : t.WellKept) (hkept : t.constraints.get? key = some c)
    {line : String} (hline : checkLine? c = some line) :
    line ∉ t.sortedColumns.filterMap (t.columnText? target) := by
  obtain ⟨condition, rfl⟩ := h.exists_checkLine? hkept hline
  intro hmem
  obtain ⟨column, hcolumn, htext⟩ := List.mem_filterMap.mp hmem
  obtain ⟨hname, htype⟩ := h.columns column (Order.mem_sort.mp hcolumn)
  obtain ⟨type, -, hdefinition⟩ := exists_columnText? t target hname htype
  rw [hdefinition, Option.some.injEq] at htext
  have hhead := congrArg (fun s => s.toList.head?) htext
  simp only [List.cons_append, String.intercalate_cons_cons, String.toList_append, List.append_assoc,
    List.head?_append] at hhead
  rcases hfirst : (Sql.quoteName column.name.spelled).toList.head? with _ | first
  · rw [hfirst] at hhead
    exact absurd hhead (by simp)
  · rw [hfirst] at hhead
    refine Sql.head?_quoteName column.name.spelled (hfirst.trans ?_)
    simpa using hhead

/-- A check with a clause has exactly one line. -/
theorem WellKept.count_checkLine (h : t.WellKept) (hkept : t.constraints.get? key = some c)
    {line : String} (hline : checkLine? c = some line) : (t.lines target).count line = 1 := by
  obtain ⟨before, after, hsplit, hne⟩ := Entries.exists_sorted_split hkept
  -- the entries around this one have other names, and so other lines
  have hother {entries : List (String × Constraint)} (hsub : entries ⊆ before ++ after) :
      ((entries.map (·.2)).filterMap checkLine?).count line = 0 := by
    refine List.count_eq_zero.mpr fun hmem => ?_
    obtain ⟨c', hc', hline'⟩ := List.mem_filterMap.mp hmem
    obtain ⟨entry, hentry, rfl⟩ := List.mem_map.mp hc'
    have hsorted : entry ∈ t.constraints.sorted := by
      rw [hsplit]
      exact (List.sublist_cons_self _ _).append_left before |>.subset (hsub hentry)
    exact hne entry (hsub hentry)
      (h.checkLine?_inj hkept (Entries.get?_of_mem_sorted hsorted) hline hline').symm
  have hfront := hother (List.subset_append_left before after)
  have hback := hother (List.subset_append_right before after)
  rw [lines, List.count_append, List.count_eq_zero.mpr (h.not_mem_columnLines hkept hline),
    Entries.sortedValues, hsplit, List.map_append, List.map_cons, List.filterMap_append,
    List.count_append, hfront, List.filterMap_cons_some hline, List.count_cons_self, hback]

end Table
end SchemaScript
