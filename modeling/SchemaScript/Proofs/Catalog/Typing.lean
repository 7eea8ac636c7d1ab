import SchemaScript.Catalog.Basic
import SchemaScript.Proofs.Catalog.Entries

/-!
# Well-typed objects

A field can hold any value. In a well-typed object every text field holds a text or nothing, every list of
texts holds texts, and positions are whole numbers; no more is asked, so any text may be missing.
-/

namespace SchemaScript

namespace Field

variable {α : Type}

/-- A text, or nothing at all. -/
def isTextual (f : Field α) : Bool :=
  f.stored = .null || f.stored.isText

def isTexts (f : Field (List String)) : Bool :=
  match f.stored with
  | .null => true
  | .list items => items.all Json.isText
  | _ => false

def isWhole (f : Field Int) : Bool :=
  match f.stored with
  | .integer _ => true
  | _ => false

@[simp] theorem isTextual_absent : (absent : Field α).isTextual := rfl

@[simp] theorem isTextual_text (s : String) : (⟨.text s⟩ : Field α).isTextual := rfl

@[simp] theorem isTextual_ofText? (s : Option String) : (⟨.ofText? s⟩ : Field α).isTextual := by
  cases s <;> rfl

@[simp] theorem isTexts_ofTexts (items : List String) : (⟨.ofTexts items⟩ : Field _).isTexts := by
  simp [isTexts, Json.ofTexts, Json.isText]

@[simp] theorem isWhole_integer (n : Int) : (⟨.integer n⟩ : Field Int).isWhole := rfl

/-- Something that counts is stored in a text field: then it is a text. -/
theorem isText_of_isGiven {f : Field α} (h : f.isTextual) (hgiven : f.isGiven) :
    f.stored.isText := by
  rcases f with ⟨_ | _ | _ | _ | _ | _ | _ | _⟩ <;> simp_all [isTextual, isGiven, Json.isNothing]

end Field

def Entries.all {α : Type} (p : α → Bool) (entries : Entries α) : Bool :=
  entries.values.all p

/-! ## Tables -/

def Column.isTyped (c : Column) : Bool :=
  [c.name, c.dataType, c.userType, c.default, c.comment, c.identity.generation].all (·.isTextual) &&
    c.position.isWhole

def KeyColumn.isTyped (c : KeyColumn) : Bool :=
  c.name.isTextual && c.position.isWhole

def Constraint.isTyped (c : Constraint) : Bool :=
  [c.schema, c.table, c.name, c.referencedSchema, c.referencedTable, c.condition, c.onUpdate, c.onDelete,
      c.comment].all (·.isTextual) &&
    c.columns.all (·.isTyped) && c.referencedColumns.all (·.isTyped)

def IndexColumn.isTyped (c : IndexColumn) : Bool :=
  [c.name, c.direction, c.operatorClass].all (·.isTextual) && c.position.isWhole

def Index.isTyped (i : Index) : Bool :=
  [i.schema, i.table, i.name, i.method, i.predicate, i.definition, i.comment].all (·.isTextual) &&
    i.columns.all (·.isTyped)

def Trigger.isTyped (t : Trigger) : Bool :=
  [t.schema, t.table, t.name, t.function, t.condition, t.comment].all (·.isTextual)

def Policy.isTyped (p : Policy) : Bool :=
  [p.schema, p.table, p.name, p.visible, p.allowed].all (·.isTextual) && p.roles.isTexts

def Table.isTyped (t : Table) : Bool :=
  [t.schema, t.name, t.comment, t.partitionStrategy, t.partitionKey].all (·.isTextual) &&
    t.columns.all (·.isTyped) && t.constraints.all (·.isTyped) && t.indexes.all (·.isTyped) &&
    t.triggers.all (·.isTyped) && t.policies.all (·.isTyped)

/-! ## Other objects -/

def View.isTyped (v : View) : Bool :=
  [v.schema, v.name, v.definition, v.comment].all (·.isTextual)

def Sequence.isTyped (s : Sequence) : Bool :=
  [s.schema, s.name, s.dataType, s.ownerTable, s.ownerColumn, s.comment].all (·.isTextual)

def Member.isTyped (m : Member) : Bool :=
  m.name.isTextual && m.dataType.isTextual && m.position.isWhole

def DomainConstraint.isTyped (c : DomainConstraint) : Bool :=
  c.definition.isTextual && c.name.isTextual

def UserType.isTyped (t : UserType) : Bool :=
  [t.schema, t.name, t.base, t.default, t.comment].all (·.isTextual) && t.labels.isTexts &&
    t.members.all (·.isTyped) && t.constraints.all (·.isTyped)

def Extension.isTyped (e : Extension) : Bool :=
  [e.name, e.schema, e.version, e.comment].all (·.isTextual)

def StoredFunction.isTyped (f : StoredFunction) : Bool :=
  [f.schema, f.name, f.definition, f.language, f.arguments, f.signature, f.returnType, f.volatility,
    f.comment].all (·.isTextual)

def Procedure.isTyped (p : Procedure) : Bool :=
  [p.schema, p.name, p.definition, p.language, p.arguments, p.signature, p.comment].all (·.isTextual)

def Aggregate.isTyped (a : Aggregate) : Bool :=
  [a.schema, a.name, a.arguments, a.signature, a.returnType, a.transition, a.transitionSchema,
    a.stateType, a.initialCondition, a.final, a.finalSchema, a.comment].all (·.isTextual)

/-! ## Catalogs -/

/-- An attachment also has to name the table that is attached. -/
def PartitionAttachment.isTyped (a : PartitionAttachment) : Bool :=
  [a.parentSchema, a.parentTable, a.childSchema, a.bound].all (·.isTextual) &&
    a.childTable.stored.isText

def IndexAttachment.isTyped (a : IndexAttachment) : Bool :=
  [a.parentSchema, a.parentIndex, a.childSchema, a.childIndex].all (·.isTextual)

def Schema.isTyped (s : Schema) : Bool :=
  s.name.isTextual && s.owner.isTextual && s.tables.all (·.isTyped) && s.views.all (·.isTyped) &&
    s.functions.all (·.isTyped) && s.procedures.all (·.isTyped) && s.aggregates.all (·.isTyped) &&
    s.sequences.all (·.isTyped) && s.policies.all (·.isTyped) && s.types.all (·.isTyped)

def Catalog.isTyped (catalog : Catalog) : Bool :=
  catalog.schemas.all (·.isTyped) && catalog.extensions.all (·.isTyped) &&
    catalog.partitions.all (·.isTyped) && catalog.indexPartitions.all (·.isTyped)

/-! ## Entries -/

namespace Entries

variable {α : Type} {p : α → Bool} {entries : Entries α} {name : String} {value : α}

theorem all_iff : entries.all p ↔ ∀ pair ∈ entries.pairs, p pair.2 := by
  simp [Entries.all, values]

@[simp] theorem all_empty : (empty : Entries α).all p := rfl

theorem all_get? (h : entries.all p) (hvalue : entries.get? name = some value) : p value :=
  all_iff.mp h (name, value) (get?_eq_some_iff.mp hvalue)

theorem all_sorted (h : entries.all p) : ∀ pair ∈ entries.sorted, p pair.2 :=
  fun pair hpair => all_iff.mp h pair (mem_sorted.mp hpair)

theorem all_put (h : entries.all p) (hvalue : p value) : (entries.put name value).all p :=
  all_iff.mpr fun pair hpair => by
    rcases mem_of_mem_putPair hpair with rfl | hpair
    · exact hvalue
    · exact all_iff.mp h pair hpair

theorem all_modify {f : α → α} (h : entries.all p) (hf : ∀ value, p value → p (f value)) :
    (entries.modify name f).all p := by
  unfold modify
  split
  · next value hvalue => exact all_put h (hf value (all_get? h hvalue))
  · exact h

theorem all_filter {keep : String → Bool} (h : entries.all p) : (entries.filter keep).all p :=
  all_iff.mpr fun pair hpair => all_iff.mp h pair (List.mem_of_mem_filter hpair)

theorem all_sortedValues (h : entries.all p) : ∀ value ∈ entries.sortedValues, p value :=
  List.forall_mem_map.mpr (all_sorted h)

end Entries
end SchemaScript
