import SchemaScript.Ddl.Index
import SchemaScript.Ddl.Object
import SchemaScript.Ddl.Routine
import SchemaScript.Ddl.Table
import SchemaScript.Proofs.Catalog.Typing

/-!
# Well-typed objects can be written

Every check passes for a well-typed object, whichever of its texts are missing: either they are not needed
or nothing is written at all.
-/

namespace SchemaScript

variable {α : Type} {target : Option String}

/-- A row of checks passes if each of them does. -/
theorem forM_eq_ok {items : List α} {check : α → Except Fault Unit} :
    items.forM check = .ok () ↔ ∀ a ∈ items, check a = .ok () := by
  induction items with
  | nil => simp [pure, Except.pure]
  | cons a items ih =>
    rcases ha : check a with fault | _
    · simp [ha, bind, Except.bind]
    · simpa [ha, bind, Except.bind] using ih

theorem check_bind_eq_ok {x : Except Fault Unit} {f : Unit → Except Fault α} {a : α} :
    (x >>= f) = .ok a ↔ x = .ok () ∧ f () = .ok a := by
  rcases x with fault | _
  · simp [bind, Except.bind]
  · simp [bind, Except.bind]

/-! ## Fields -/

theorem Field.needText_of_isTextual {f : Field String} (h : f.isTextual) : f.needText = .ok () := by
  unfold needText
  by_cases hgiven : f.isGiven
  · simp [isText_of_isGiven h hgiven]
  · simp [hgiven]

theorem Field.needTexts_of_isTexts {f : Field (List String)} {other : Fault} (h : f.isTexts) :
    f.needTexts other = .ok () := by
  rcases f with ⟨_ | _ | _ | _ | _ | _ | items | _⟩ <;> simp [isTexts] at h
  · rfl
  · have hall : items.all Json.isText := by simpa using h
    simp only [needTexts, Json.items?, hall, if_true]
    split <;> rfl

theorem needOrder_of_isWhole {position : α → Field Int} {objects : List α}
    (h : ∀ a ∈ objects, (position a).isWhole) : needOrder position objects = .ok () := by
  have hall : (objects.map fun a => (position a).stored).all (·.fraction?.isSome) := by
    rw [List.all_map, List.all_eq_true]
    intro a ha
    have hwhole := h a ha
    unfold Field.isWhole at hwhole
    split at hwhole
    · next n hn => simp [hn, Json.fraction?]
    · contradiction
  simp [needOrder, Json.areOrdered, hall]

theorem Ddl.needReference_of_isTextual {schema name : Field String} (hschema : schema.isTextual)
    (hname : name.isTextual) : Ddl.needReference schema name = .ok () := by
  simp [Ddl.needReference, Field.needText_of_isTextual, hschema, hname, bind, Except.bind]

theorem mem_byPosition {position : α → Field Int} {objects : List α} {a : α} :
    a ∈ byPosition position objects ↔ a ∈ objects :=
  Order.mem_sort

/-! ## Tables -/

theorem Column.check_of_isTyped {c : Column} (h : c.isTyped) (hname : c.name.isGiven)
    (htype : c.dataType.isGiven) : c.check target = .ok () := by
  simp only [isTyped, List.all_cons, List.all_nil, Bool.and_eq_true] at h
  obtain ⟨⟨hn, ht, hu, hd, -, -, -⟩, -⟩ := h
  have hdefault : c.checkDefault = .ok () := by
    unfold checkDefault
    split
    · rfl
    · rfl
    · by_cases hgiven : c.default.isGiven
      · simp [Field.isText_of_isGiven hd hgiven]
      · simp [hgiven]
  have htypeText : c.checkType = .ok () := by
    unfold checkType
    refine check_bind_eq_ok.mpr ⟨hdefault, ?_⟩
    split
    · exact Field.needText_of_isTextual hu
    · exact Field.needText_of_isTextual ht
  have hdefaultText : c.checkDefaultText target = .ok () := by
    unfold checkDefaultText
    split
    · rfl
    · next hwritten =>
      have hgiven : c.default.stored.isText := by
        simp only [Bool.or_eq_true, decide_eq_true_eq, not_or] at hwritten
        simpa [Field.isTextual, hwritten.2] using hd
      simp [hgiven]
  refine check_bind_eq_ok.mpr ⟨Field.needText_of_isTextual hn, ?_⟩
  refine check_bind_eq_ok.mpr ⟨htypeText, check_bind_eq_ok.mpr ⟨hdefaultText, ?_⟩⟩
  simp [Field.isText_of_isGiven hn hname, Field.isText_of_isGiven ht htype]

theorem Constraint.needColumns_of_isTyped {columns : List KeyColumn}
    (h : ∀ c ∈ columns, c.isTyped) : needColumns columns = .ok () := by
  have hcolumn (c : KeyColumn) (hc : c ∈ columns) : c.name.isTextual ∧ c.position.isWhole := by
    simpa [KeyColumn.isTyped] using h c hc
  exact check_bind_eq_ok.mpr ⟨needOrder_of_isWhole fun c hc => (hcolumn c hc).2,
    forM_eq_ok.mpr fun c hc => Field.needText_of_isTextual (hcolumn c hc).1⟩

theorem Constraint.check_of_isTyped {c : Constraint} (h : c.isTyped) : c.check target = .ok () := by
  simp only [isTyped, List.all_cons, List.all_nil, Bool.and_eq_true, List.all_eq_true] at h
  obtain ⟨⟨⟨hschema, htable, hname, hforeign, hreferenced, hcondition, -, -, hcomment, -⟩, hcolumns⟩,
    hothers⟩ := h
  have hforeignSchema : c.foreignSchema.isTextual := by
    unfold foreignSchema
    split
    · exact hforeign
    · exact hschema
  have hclause : c.checkClause = .ok () := by
    unfold checkClause
    split
    · rfl
    · split
      · exact needColumns_of_isTyped hcolumns
      · exact needColumns_of_isTyped hcolumns
      · split
        · exact check_bind_eq_ok.mpr ⟨Ddl.needReference_of_isTextual hforeignSchema hreferenced,
            check_bind_eq_ok.mpr ⟨needColumns_of_isTyped hcolumns, needColumns_of_isTyped hothers⟩⟩
        · rfl
      · exact Field.needText_of_isTextual hcondition
      · rfl
  refine check_bind_eq_ok.mpr ⟨hclause, ?_⟩
  split
  · exact check_bind_eq_ok.mpr ⟨Ddl.needReference_of_isTextual hschema htable,
      check_bind_eq_ok.mpr ⟨Field.needText_of_isTextual hname, Field.needText_of_isTextual hcomment⟩⟩
  · rfl

theorem Index.checkColumn_of_isTyped {c : IndexColumn} (h : c.isTyped) : checkColumn c = .ok () := by
  simp only [IndexColumn.isTyped, List.all_cons, List.all_nil, Bool.and_eq_true] at h
  obtain ⟨⟨hname, hdirection, -⟩, -⟩ := h
  have hitems (hgiven : c.name.isGiven) : c.name.stored.items?.isNone = false := by
    have htext := Field.isText_of_isGiven hname hgiven
    revert htext
    cases c.name.stored <;> simp [Json.isText, Json.items?]
  simp only [checkColumn, Field.needText_of_isTextual hname, Field.needText_of_isTextual hdirection]
  split
  · next hsearch => simp_all
  · rfl

theorem Index.check_of_isTyped {i : Index} (h : i.isTyped) : i.check = .ok () := by
  simp only [isTyped, List.all_cons, List.all_nil, Bool.and_eq_true, List.all_eq_true] at h
  obtain ⟨⟨hschema, htable, hname, -, -, hdefinition, hcomment, -⟩, hcolumns⟩ := h
  have hpositions : ∀ c ∈ i.columns, c.position.isWhole := fun c hc =>
    (Bool.and_eq_true_iff.mp (hcolumns c hc)).2
  have hcolumns : i.sortedColumns.forM checkColumn = .ok () :=
    forM_eq_ok.mpr fun c hc => checkColumn_of_isTyped (hcolumns c (mem_byPosition.mp hc))
  simp only [check, checkColumns, needOrder_of_isWhole hpositions, hcolumns,
    Ddl.needReference_of_isTextual hschema htable, Ddl.needReference_of_isTextual hschema hname,
    Field.needText_of_isTextual hname, Field.needText_of_isTextual hdefinition,
    Field.needText_of_isTextual hcomment]
  split_ifs <;> rfl

theorem Trigger.check_of_isTyped {t : Trigger} (h : t.isTyped) : t.check = .ok () := by
  simp only [isTyped, List.all_cons, List.all_nil, Bool.and_eq_true] at h
  obtain ⟨hschema, htable, hname, hfunction, hcondition, hcomment, -⟩ := h
  simp only [check, Ddl.needReference_of_isTextual hschema htable, Field.needText_of_isTextual hname,
    Field.needText_of_isTextual hfunction, Field.needText_of_isTextual hcondition,
    Field.needText_of_isTextual hcomment]
  split <;> rfl

theorem Policy.check_of_isTyped {p : Policy} (h : p.isTyped) : p.check = .ok () := by
  simp only [isTyped, List.all_cons, List.all_nil, Bool.and_eq_true] at h
  obtain ⟨⟨hschema, htable, hname, hvisible, hallowed, -⟩, hroles⟩ := h
  simp only [check, Ddl.needReference_of_isTextual hschema htable, Field.needText_of_isTextual hname,
    Field.needTexts_of_isTexts hroles, Field.needText_of_isTextual hvisible,
    Field.needText_of_isTextual hallowed]
  split <;> rfl

theorem Table.check_of_isTyped {t : Table} (h : t.isTyped) : t.check target = .ok () := by
  simp only [isTyped, List.all_cons, List.all_nil, Bool.and_eq_true, List.all_eq_true] at h
  obtain ⟨⟨⟨⟨⟨⟨hschema, hname, hcomment, hstrategy, -⟩, hcolumns⟩, hconstraints⟩, -⟩, -⟩, -⟩ := h
  have hpositions : ∀ c ∈ t.columns, c.position.isWhole := fun c hc =>
    (Bool.and_eq_true_iff.mp (hcolumns c hc)).2
  have hcomments : t.sortedColumns.forM (·.comment.needText) = .ok () :=
    forM_eq_ok.mpr fun c hc => Field.needText_of_isTextual (by
      have hc := hcolumns c (mem_byPosition.mp hc)
      simp only [Column.isTyped, List.all_cons, Bool.and_eq_true] at hc
      exact hc.1.2.2.2.2.1)
  have hlines : t.constraints.sortedValues.forM checkLine = .ok () :=
    forM_eq_ok.mpr fun c hc => by
      have hc := Entries.all_sortedValues hconstraints c hc
      simp only [Constraint.isTyped, List.all_cons, Bool.and_eq_true] at hc
      obtain ⟨⟨⟨-, -, hname, -, -, hcondition, -⟩, -⟩, -⟩ := hc
      simp only [checkLine, Field.needText_of_isTextual hname, Field.needText_of_isTextual hcondition]
      split <;> rfl
  unfold check
  split
  · rfl
  · next hcomplete =>
    have hdefinitions : t.sortedColumns.forM (Column.check target) = .ok () :=
      forM_eq_ok.mpr fun c hc => by
        have hc := mem_byPosition.mp hc
        simp only [isComplete, Bool.not_eq_true', Bool.not_eq_false, Bool.and_eq_true,
          List.all_eq_true] at hcomplete
        exact Column.check_of_isTyped (hcolumns c hc) (hcomplete.2 c hc).1 (hcomplete.2 c hc).2
    simp only [Ddl.needReference_of_isTextual hschema hname, needOrder_of_isWhole hpositions,
      hdefinitions, hlines, hcomments, Field.needText_of_isTextual hstrategy,
      Field.needText_of_isTextual hcomment]
    split <;> rfl

theorem Table.checkRowSecurity_of_isTyped {t : Table} (h : t.isTyped) :
    t.checkRowSecurity = .ok () := by
  simp only [isTyped, List.all_cons, Bool.and_eq_true] at h
  obtain ⟨⟨⟨⟨⟨⟨hschema, hname, -⟩, -⟩, -⟩, -⟩, -⟩, -⟩ := h
  simp only [checkRowSecurity, Ddl.needReference_of_isTextual hschema hname]
  split <;> rfl

theorem IndexAttachment.check_of_isTyped {a : IndexAttachment} (h : a.isTyped) :
    a.check = .ok () := by
  simp only [isTyped, List.all_cons, List.all_nil, Bool.and_eq_true] at h
  obtain ⟨hparentSchema, hparent, hchildSchema, hchild, -⟩ := h
  exact check_bind_eq_ok.mpr ⟨Ddl.needReference_of_isTextual hparentSchema hparent,
    Ddl.needReference_of_isTextual hchildSchema hchild⟩

/-! ## Other objects -/

theorem Schema.check_of_isTyped {s : Schema} (h : s.isTyped) : s.check = .ok () := by
  simp only [isTyped, Bool.and_eq_true] at h
  exact Field.needText_of_isTextual h.1.1.1.1.1.1.1.1.1

theorem Extension.check_of_isTyped {e : Extension} (h : e.isTyped) : e.check = .ok () := by
  simp only [isTyped, List.all_cons, List.all_nil, Bool.and_eq_true] at h
  obtain ⟨hname, hschema, -, hcomment, -⟩ := h
  simp only [check, Field.needText_of_isTextual hname, Field.needText_of_isTextual hschema,
    Field.needText_of_isTextual hcomment]
  split <;> rfl

theorem UserType.checkBody_of_isTyped {t : UserType} (h : t.isTyped) : t.checkBody = .ok () := by
  simp only [isTyped, List.all_cons, List.all_nil, Bool.and_eq_true, List.all_eq_true] at h
  obtain ⟨⟨⟨⟨-, -, hbase, -⟩, hlabels⟩, hmembers⟩, hconstraints⟩ := h
  have hmember (m : Member) (hm : m ∈ t.members) :
      m.name.isTextual ∧ m.dataType.isTextual ∧ m.position.isWhole := by
    simpa [Member.isTyped, and_assoc] using hmembers m hm
  have hchecked : t.members.forM Member.check = .ok () := forM_eq_ok.mpr fun m hm =>
    check_bind_eq_ok.mpr ⟨Field.needText_of_isTextual (hmember m hm).1,
      Field.needText_of_isTextual (hmember m hm).2.1⟩
  have hnames : t.constraints.forM (·.name.needText) = .ok () := forM_eq_ok.mpr fun c hc =>
    Field.needText_of_isTextual (Bool.and_eq_true_iff.mp (hconstraints c hc)).2
  unfold checkBody
  split
  · exact Field.needTexts_of_isTexts hlabels
  · exact check_bind_eq_ok.mpr ⟨needOrder_of_isWhole fun m hm => (hmember m hm).2.2, hchecked⟩
  · exact check_bind_eq_ok.mpr ⟨Field.needText_of_isTextual hbase, hnames⟩

theorem UserType.check_of_isTyped {t : UserType} (h : t.isTyped) : t.check = .ok () := by
  have hbody := checkBody_of_isTyped h
  simp only [isTyped, List.all_cons, List.all_nil, Bool.and_eq_true] at h
  obtain ⟨⟨⟨⟨hschema, hname, -, -, hcomment, -⟩, -⟩, -⟩, -⟩ := h
  simp only [check, Ddl.needReference_of_isTextual hschema hname, hbody,
    Field.needText_of_isTextual hcomment]
  split_ifs <;> rfl

theorem Sequence.check_of_isTyped {s : Sequence} (h : s.isTyped) : s.check = .ok () := by
  simp only [isTyped, List.all_cons, List.all_nil, Bool.and_eq_true] at h
  obtain ⟨hschema, hname, htype, -, -, hcomment, -⟩ := h
  simp only [check, Ddl.needReference_of_isTextual hschema hname, Field.needText_of_isTextual htype,
    Field.needText_of_isTextual hcomment]
  split <;> rfl

theorem View.needText_of_isTyped {v : View} (h : v.isTyped) : v.definition.needText = .ok () := by
  simp only [isTyped, List.all_cons, Bool.and_eq_true] at h
  exact Field.needText_of_isTextual h.2.2.1

theorem View.check_of_isTyped {v : View} (h : v.isTyped) : v.check = .ok () := by
  have hdefinition := needText_of_isTyped h
  simp only [isTyped, List.all_cons, List.all_nil, Bool.and_eq_true] at h
  obtain ⟨hschema, hname, -, hcomment, -⟩ := h
  simp only [check, hdefinition, Ddl.needReference_of_isTextual hschema hname,
    Field.needText_of_isTextual hcomment]
  split <;> rfl

/-- What counts as a body is a text. -/
theorem Ddl.needBody_of_isTextual {body : Field String} (h : body.isTextual) (hgiven : body.isGiven) :
    Ddl.needBody body = .ok () := by
  simp [needBody, Field.isText_of_isGiven h hgiven]

theorem StoredFunction.check_of_isTyped {f : StoredFunction} (h : f.isTyped) :
    f.check target = .ok () := by
  simp only [isTyped, List.all_cons, List.all_nil, Bool.and_eq_true] at h
  obtain ⟨hschema, hname, hbody, -, -, -, hreturns, hvolatility, hcomment, -⟩ := h
  unfold check
  split
  · next hcomplete =>
    simp only [Ddl.needReference_of_isTextual hschema hname, Field.needText_of_isTextual hreturns,
      Field.needText_of_isTextual hvolatility,
      Ddl.needBody_of_isTextual hbody (Bool.and_eq_true_iff.mp hcomplete).2,
      Field.needText_of_isTextual hcomment]
    split <;> rfl
  · rfl

theorem Procedure.check_of_isTyped {p : Procedure} (h : p.isTyped) : p.check = .ok () := by
  simp only [isTyped, List.all_cons, List.all_nil, Bool.and_eq_true] at h
  obtain ⟨hschema, hname, hbody, -, -, -, hcomment, -⟩ := h
  unfold check
  split
  · next hcomplete =>
    simp only [Ddl.needReference_of_isTextual hschema hname,
      Ddl.needBody_of_isTextual hbody (Bool.and_eq_true_iff.mp hcomplete).2,
      Field.needText_of_isTextual hcomment]
    rfl
  · rfl

theorem Aggregate.check_of_isTyped {a : Aggregate} (h : a.isTyped) : a.check target = .ok () := by
  simp only [isTyped, List.all_cons, List.all_nil, Bool.and_eq_true] at h
  obtain ⟨hschema, hname, -, -, -, -, -, hstate, hinitial, -, -, hcomment, -⟩ := h
  have hwritten : (decide (a.initialCondition.stored ≠ .null) &&
      !a.initialCondition.stored.isText) = false := by
    simp only [Field.isTextual, Bool.or_eq_true, decide_eq_true_eq] at hinitial
    rcases hinitial with hnull | htext
    · simp [hnull]
    · simp [htext]
  simp only [check, Ddl.needReference_of_isTextual hschema hname, Field.needText_of_isTextual hstate,
    hwritten, Bool.false_eq_true, if_false, Field.needText_of_isTextual hcomment]
  split_ifs <;> rfl

end SchemaScript
