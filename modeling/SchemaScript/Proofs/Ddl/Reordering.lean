import SchemaScript.Ddl.Index
import SchemaScript.Ddl.Object
import SchemaScript.Ddl.Table
import SchemaScript.Ddl.Routine
import SchemaScript.Proofs.Catalog.Reordering

/-!
# Statements of objects that are alike

Objects that differ at most in what has no order of its own render alike, and are refused alike: what a
statement lists is put in order first, and everything else that goes through a list asks only what is in
it.
-/

namespace SchemaScript

variable {target : Option String}

theorem Field.needText_cases (f : Field String) :
    f.needText = .ok () ∨ f.needText = .error .notAText := by
  unfold Field.needText
  split
  · exact .inr rfl
  · exact .inl rfl

/-! ## Triggers, indexes and types -/

namespace Trigger.Alike

variable {t t' : Trigger}

theorem isComplete_eq (h : t.Alike t') : t.isComplete = t'.isComplete := by
  obtain @⟨events, hsame⟩ := h
  have hempty : t.events.isEmpty = events.isEmpty := by
    rw [Bool.eq_iff_iff, List.isEmpty_iff, List.isEmpty_iff, List.eq_nil_iff_forall_not_mem,
      List.eq_nil_iff_forall_not_mem]
    simp only [hsame]
  rw [isComplete, isComplete, hempty]

theorem eventText_eq (h : t.Alike t') : eventText t.events = eventText t'.events := by
  obtain @⟨events, hsame⟩ := h
  have hcontains : t.events.contains = events.contains := by
    funext event
    rw [Bool.eq_iff_iff, List.contains_iff_mem, List.contains_iff_mem, hsame]
  rw [eventText, eventText, hcontains]

theorem ddl_eq (h : t.Alike t') : t.ddl target = t'.ddl target := by
  have hcomplete := h.isComplete_eq
  have hevents := h.eventText_eq
  obtain ⟨-⟩ := h
  rw [ddl, ddl, hcomplete, hevents]

theorem check_eq (h : t.Alike t') : t.check = t'.check := by
  have hcomplete := h.isComplete_eq
  obtain ⟨-⟩ := h
  rw [check, check, hcomplete]

end Trigger.Alike

namespace Index.Alike

variable {i i' : Index}

theorem isPrimary_eq (h : i.Alike i') : i.isPrimary = i'.isPrimary := by
  obtain ⟨-⟩ := h
  rfl

theorem hasColumns_eq (h : i.Alike i') : i.hasColumns = i'.hasColumns := by
  obtain ⟨hcolumns⟩ := h
  rw [hasColumns, hasColumns, hcolumns.perm.isEmpty_eq, hcolumns.perm.all_eq]

theorem sortedColumns_eq (h : i.Alike i') : i.sortedColumns = i'.sortedColumns := by
  obtain ⟨hcolumns⟩ := h
  exact hcolumns.byPosition_eq

theorem ddl_eq (h : i.Alike i') : i.ddl target = i'.ddl target := by
  have hhas := h.hasColumns_eq
  have hsorted := h.sortedColumns_eq
  obtain @⟨columns, -⟩ := h
  have hfrom : i.fromColumns? target = ({ i with columns } : Index).fromColumns? target := by
    rw [fromColumns?, fromColumns?, hhas, hsorted]
  have hdefinition (d : String) :
      i.fromDefinition d target = ({ i with columns } : Index).fromDefinition d target := rfl
  rw [ddl, ddl, hfrom]
  simp only [hdefinition]

theorem check_eq (h : i.Alike i') : i.check = i'.check := by
  have hhas := h.hasColumns_eq
  have hsorted := h.sortedColumns_eq
  obtain @⟨columns, hcolumns⟩ := h
  have hchecked : i.checkColumns = ({ i with columns } : Index).checkColumns := by
    rw [checkColumns, checkColumns, hsorted, needOrder_perm hcolumns.perm]
  rw [check, check, hhas, hchecked]

end Index.Alike

namespace UserType.Alike

variable {t t' : UserType}

theorem name_eq (h : t.Alike t') : t.name = t'.name := by
  obtain ⟨-⟩ := h
  rfl

theorem isDomain_eq (h : t.Alike t') : t.isDomain = t'.isDomain := by
  obtain ⟨-⟩ := h
  rfl

theorem isComplete_eq (h : t.Alike t') : t.isComplete = t'.isComplete := by
  obtain ⟨hmembers⟩ := h
  rw [isComplete, isComplete, hmembers.perm.isEmpty_eq]

theorem ddl_eq (h : t.Alike t') : t.ddl target = t'.ddl target := by
  have hcomplete := h.isComplete_eq
  obtain @⟨members, hmembers⟩ := h
  have hbody : compositeBody target t.members = compositeBody target members := by
    rw [compositeBody, compositeBody, hmembers.byPosition_eq]
  rw [ddl, ddl, hcomplete, hbody]
  rfl

theorem check_eq (h : t.Alike t') : t.check = t'.check := by
  have hcomplete := h.isComplete_eq
  obtain @⟨members, hmembers⟩ := h
  have hmember (m : Member) : m.check = .ok () ∨ m.check = .error .notAText := by
    unfold Member.check
    rcases m.name.needText_cases with hname | hname
    · rw [hname]
      exact m.dataType.needText_cases
    · rw [hname]
      exact .inr rfl
  have hbody : t.checkBody = ({ t with members } : UserType).checkBody := by
    rw [checkBody, checkBody, needOrder_perm hmembers.perm, forM_perm hmember hmembers.perm]
  rw [check, check, hcomplete, hbody]

end UserType.Alike

/-! ## Constraints -/

namespace Constraint.Alike

variable {c c' : Constraint}

theorem kind_eq (h : c.Alike c') : c.kind = c'.kind := by
  obtain ⟨-, -⟩ := h
  rfl

theorem columnNames_perm (h : c.Alike c') :
    (c.columns.map (·.name)).Perm (c'.columns.map (·.name)) := by
  obtain ⟨hcolumns, -⟩ := h
  exact hcolumns.perm.map _

theorem sortedColumns_eq (h : c.Alike c') : c.sortedColumns = c'.sortedColumns := by
  obtain ⟨hcolumns, -⟩ := h
  exact hcolumns.byPosition_eq

theorem sortedReferencedColumns_eq (h : c.Alike c') :
    c.sortedReferencedColumns = c'.sortedReferencedColumns := by
  obtain ⟨-, hreferenced⟩ := h
  exact hreferenced.byPosition_eq

theorem foreignKeyClause_eq (h : c.Alike c') :
    c.foreignKeyClause target = c'.foreignKeyClause target := by
  obtain ⟨hcolumns, hreferenced⟩ := h
  funext columns referenced
  rw [foreignKeyClause, foreignKeyClause, hcolumns.perm.isEmpty_eq, hreferenced.perm.isEmpty_eq]
  rfl

theorem clause_eq (h : c.Alike c') : c.clause target = c'.clause target := by
  have hsorted := h.sortedColumns_eq
  have hsortedReferenced := h.sortedReferencedColumns_eq
  have hkey : c.foreignKeyClause target = c'.foreignKeyClause target := h.foreignKeyClause_eq
  obtain ⟨hcolumns, -⟩ := h
  rw [clause, clause, hsorted, hsortedReferenced, hkey, hcolumns.perm.isEmpty_eq]

theorem ddl_eq (h : c.Alike c') : c.ddl target = c'.ddl target := by
  have hclause : c.clause target = c'.clause target := h.clause_eq
  obtain ⟨-, -⟩ := h
  rw [ddl, ddl, hclause]

theorem needColumns_perm {columns columns' : List KeyColumn} (h : columns.Perm columns') :
    needColumns columns = needColumns columns' := by
  rw [needColumns, needColumns, needOrder_perm h, forM_perm (fun c => c.name.needText_cases) h]

theorem checkClause_eq (h : c.Alike c') : c.checkClause = c'.checkClause := by
  obtain ⟨hcolumns, hreferenced⟩ := h
  rw [checkClause, checkClause, (hcolumns.perm.append hreferenced.perm).all_eq,
    hcolumns.perm.isEmpty_eq, needColumns_perm hcolumns.perm, needColumns_perm hreferenced.perm]
  rfl

theorem check_eq (h : c.Alike c') : c.check target = c'.check target := by
  have hclause : c.clause target = c'.clause target := h.clause_eq
  have hchecked := h.checkClause_eq
  obtain ⟨-, -⟩ := h
  rw [check, check, hclause, hchecked]

theorem checkLine?_eq (h : c.Alike c') : Table.checkLine? c = Table.checkLine? c' := by
  obtain ⟨-, -⟩ := h
  rfl

theorem checkLine_eq (h : c.Alike c') : Table.checkLine c = Table.checkLine c' := by
  obtain ⟨-, -⟩ := h
  rfl

end Constraint.Alike

/-! ## Tables -/

/-- The constraints are the same as far as the statement of their table goes. -/
structure Constraint.ShowsAlike (c c' : Constraint) : Prop where
  kind : c.kind = c'.kind
  columnNames : (c.columns.map (·.name)).Perm (c'.columns.map (·.name))
  condition : c.condition = c'.condition
  line : Table.checkLine? c = Table.checkLine? c'
  check : Table.checkLine c = Table.checkLine c'

theorem Constraint.Alike.showsAlike {c c' : Constraint} (h : c.Alike c') : c.ShowsAlike c' where
  kind := h.kind_eq
  columnNames := h.columnNames_perm
  condition := by
    obtain ⟨-, -⟩ := h
    rfl
  line := h.checkLine?_eq
  check := h.checkLine_eq

namespace Table

variable {t t' : Table} (h : t.constraints.Alike Constraint.ShowsAlike t'.constraints)
include h

theorem soleConstraint?_congr (column : Field String) (kind : ConstraintKind) :
    t.soleConstraint? column kind = t'.soleConstraint? column kind := by
  have hfound := find?_rel
    (p := fun entry => entry.2.kind == kind && entry.2.columns.map (·.name) == [column])
    (q := fun entry => entry.2.kind == kind && entry.2.columns.map (·.name) == [column])
    (fun x y hxy => ?_) h.forall₂_sorted
  · rw [soleConstraint?, soleConstraint?]
    generalize t.constraints.sorted.find? _ = x at hfound ⊢
    generalize List.find? _ _ = y at hfound ⊢
    cases hfound with
    | some heq => exact congrArg some heq.1
    | none => rfl
  · have hnames := hxy.2.columnNames
    have hsingle : x.2.columns.map (·.name) = [column] ↔ y.2.columns.map (·.name) = [column] := by
      constructor
      · exact fun hx => List.perm_singleton.mp (hx ▸ hnames.symm)
      · exact fun hy => List.perm_singleton.mp (hy ▸ hnames)
    rw [hxy.2.kind, Bool.eq_iff_iff, Bool.and_eq_true, Bool.and_eq_true,
      beq_iff_eq (a := List.map _ _), beq_iff_eq (a := List.map _ _), hsingle]

theorem contains_primaryKeyColumns_congr (column : Field String) :
    t.primaryKeyColumns.contains column = t'.primaryKeyColumns.contains column := by
  have hfound := find?_rel (p := fun c => c.kind == .primaryKey) (q := fun c => c.kind == .primaryKey)
    (fun x y hxy => by rw [hxy.kind]) h.forall₂_sortedValues
  rw [primaryKeyColumns, primaryKeyColumns, primaryKey?, primaryKey?]
  generalize t.constraints.sortedValues.find? _ = x at hfound ⊢
  generalize List.find? _ _ = y at hfound ⊢
  cases hfound with
  | some hxy => exact hxy.columnNames.contains_eq
  | none => rfl

theorem columnText?_congr : t.columnText? target = t'.columnText? target := by
  funext column
  rw [columnText?, columnText?, columnOptions, columnOptions, soleConstraint?_congr h,
    soleConstraint?_congr h, contains_primaryKeyColumns_congr h]

theorem lines_congr (hcolumns : t.sortedColumns = t'.sortedColumns) : t.lines target = t'.lines target := by
  have hchecks : t.constraints.sortedValues.filterMap checkLine? =
      t'.constraints.sortedValues.filterMap checkLine? :=
    filterMap_eq_of_forall₂ (fun _ _ hxy => hxy.line) h.forall₂_sortedValues
  rw [lines, lines, hcolumns, columnText?_congr h, hchecks]

theorem isInline_congr (key : String) {c c' : Constraint} (hc : c.ShowsAlike c') :
    t.isInline key c = t'.isInline key c' := by
  have hsole := soleConstraint?_congr h
  have hnames := hc.columnNames
  rw [isInline, isInline, hc.kind, hc.condition]
  rcases hfound : c.columns with _ | ⟨x, _ | ⟨y, rest⟩⟩
  · rw [hfound] at hnames
    rw [List.map_eq_nil_iff.mp (List.nil_perm.mp hnames)]
  · rw [hfound, List.map_singleton] at hnames
    obtain ⟨x', hfound', hname⟩ := List.map_eq_singleton_iff.mp (List.singleton_perm.mp hnames).symm
    rw [hfound']
    simp only [hsole, hname]
  · have hlength := hnames.length_eq
    rw [hfound] at hlength
    rcases hfound' : c'.columns with _ | ⟨x', _ | ⟨y', rest'⟩⟩
    · simp [hfound'] at hlength
    · simp [hfound'] at hlength
    · rfl

end Table

namespace Table.Alike

variable {t t' : Table}

theorem showsAlike (h : t.Alike t') : t.constraints.Alike Constraint.ShowsAlike t'.constraints := by
  obtain ⟨-, hconstraints, -, -, -⟩ := h
  exact hconstraints.mono fun _ _ hc => hc.showsAlike

theorem sortedColumns_eq (h : t.Alike t') : t.sortedColumns = t'.sortedColumns := by
  obtain ⟨hcolumns, -, -, -, -⟩ := h
  exact hcolumns.byPosition_eq

theorem isComplete_eq (h : t.Alike t') : t.isComplete = t'.isComplete := by
  obtain ⟨hcolumns, -, -, -, -⟩ := h
  rw [isComplete, isComplete, hcolumns.perm.all_eq]

theorem lines_eq (h : t.Alike t') : t.lines target = t'.lines target :=
  lines_congr h.showsAlike h.sortedColumns_eq

theorem ddl_eq (h : t.Alike t') : t.ddl target = t'.ddl target := by
  have hlines : t.lines target = t'.lines target := h.lines_eq
  have hcomplete := h.isComplete_eq
  have hcomments (name : String) : t.comments name = t'.comments name := by
    have hsorted := h.sortedColumns_eq
    obtain ⟨-, -, -, -, -⟩ := h
    rw [comments, comments, hsorted]
  obtain ⟨-, -, -, -, -⟩ := h
  rw [ddl, ddl, hcomplete, hlines]
  simp only [hcomments]
  rfl

theorem check_eq (h : t.Alike t') : t.check target = t'.check target := by
  have hsorted := h.sortedColumns_eq
  have hcomplete := h.isComplete_eq
  obtain ⟨hcolumns, hconstraints, -, -, -⟩ := h
  rw [check, check, hcomplete, hsorted, needOrder_perm hcolumns.perm,
    forM_congr (fun _ _ hxy => hxy.checkLine_eq) hconstraints.forall₂_sortedValues]

theorem isInline_eq (h : t.Alike t') (key : String) {c c' : Constraint} (hc : c.Alike c') :
    t.isInline key c = t'.isInline key c' :=
  isInline_congr h.showsAlike key hc.showsAlike

theorem forall₂_foreignKeys (h : t.Alike t') :
    List.Forall₂ Constraint.Alike t.foreignKeys t'.foreignKeys := by
  obtain ⟨-, hconstraints, -, -, -⟩ := h
  exact forall₂_filter (fun _ _ hxy => by rw [hxy.kind_eq]) hconstraints.forall₂_sortedValues

end Table.Alike
end SchemaScript
