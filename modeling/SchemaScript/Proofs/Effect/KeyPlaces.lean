import SchemaScript.Proofs.Effect.FreeName
import SchemaScript.Proofs.Effect.Lineage
import SchemaScript.Proofs.Effect.Outcome
import SchemaScript.Proofs.Effect.Supply
import SchemaScript.Proofs.Sql.KeyText

/-!
# Keys behind a column and by themselves

A key of one column can be declared behind the column or by itself. Elements without a constraint may come in between:
the table that they leave behind is the same, whether the key is there already or not (`addElements_added`). So
both places say the same, but for the time at which a foreign key is checked, which is lost behind a column
(`catalog_of_places`).
-/

namespace SchemaScript

/-- The constraint, checked at once. -/
def Constraint.atOnce (k : Constraint) : Constraint :=
  { k with deferrable := false, initiallyDeferred := false }

/-! ## Two places -/

namespace Sql.ColumnKey

/-- The key is a foreign key that is not, or not always, checked at once. -/
def isDeferred (key : ColumnKey) : Bool :=
  match key.kind with
  | .references _ => Reader.isDeferrable key.properties
  | _ => false

/-- The key without its properties. -/
def plain (key : ColumnKey) : ColumnKey :=
  { key with properties := [] }

theorem byItself_plain {key : ColumnKey} (h : key.isDeferred = false) (column : String) :
    key.plain.byItself column = key.byItself column := by
  unfold isDeferred at h
  unfold byItself plain
  cases hkind : key.kind with
  | primaryKey | unique => rfl
  | references reference =>
    rw [hkind] at h
    have hdeferred : key.properties.contains .deferred = false := (Bool.or_eq_false_iff.mp h).2
    rw [show Reader.isDeferrable key.properties = false from h, hdeferred]
    rfl

/-- The columns under a key: that of a primary key holds no nulls. -/
def settled (key : ColumnKey) (column : String) (columns : List Column) : List Column :=
  match key.kind with
  | .primaryKey =>
    Table.modifyFirst (fun c => c.name == (column : Field String)) (fun c => { c with nullable := false }) columns
  | _ => columns

end Sql.ColumnKey

namespace Effect

open Sql

variable {default : String} {t t' : Table} {d : Draft} {clause : ConstraintClause} {key : ColumnKey} {column : String}

/-! ## What a constraint adds -/

/-- The table with what a clause adds to it. -/
def added (default : String) (clause : ConstraintClause) (t : Table) : Table :=
  match constraintOf default t clause with
  | none => t
  | some c => if c.kind == .primaryKey then withoutNulls (putConstraint t c) clause.columns else putConstraint t c

theorem result_addConstraint (default : String) (t : Table) (clause : ConstraintClause) :
    (addConstraint default t clause).result = .ok (added default clause t) := by
  unfold addConstraint added
  cases constraintOf default t clause <;> rfl

/-- Behind its column a key is the key without its properties. -/
theorem added_behind (default : String) (key : ColumnKey) (column : String) (t : Table) :
    added default { name := key.name, column := some column, rule := key.kind.rule false false } t =
      added default (key.plain.byItself column) t := by
  unfold added ColumnKey.byItself ColumnKey.plain
  cases key.kind <;> rfl

theorem columns_added (default : String) (key : ColumnKey) (column : String) (t : Table) :
    (added default (key.byItself column) t).columns = key.settled column t.columns := by
  unfold added ColumnKey.byItself ColumnKey.settled
  cases key.kind <;> rfl

/-- What a key adds does not depend on the columns that are there. -/
theorem added_withColumns (default : String) (key : ColumnKey) (column : String) (t : Table) (columns : List Column) :
    added default (key.byItself column) { t with columns } =
      { added default (key.byItself column) t with columns := key.settled column columns } := by
  unfold added ColumnKey.byItself ColumnKey.settled
  cases key.kind <;> rfl

theorem name_added (default : String) (key : ColumnKey) (column : String) (t : Table) :
    (added default (key.byItself column) t).schema = t.schema ∧
      (added default (key.byItself column) t).name = t.name := by
  unfold added ColumnKey.byItself
  cases key.kind <;> exact ⟨rfl, rfl⟩

/-! ## Columns under a key -/

section

variable {p : Column → Bool} {f g : Column → Column} {columns more : List Column}

theorem modifyFirst_append (p : Column → Bool) (f : Column → Column) (columns more : List Column) :
    Table.modifyFirst p f (columns ++ more) =
      if columns.any p then Table.modifyFirst p f columns ++ more else columns ++ Table.modifyFirst p f more := by
  induction columns with
  | nil => rfl
  | cons c columns ih =>
    rw [List.cons_append, Table.modifyFirst, Table.modifyFirst, List.any_cons, ih]
    by_cases hc : p c
    · simp [hc]
    · by_cases hany : columns.any p <;> simp [hc, hany]

theorem length_modifyFirst (p : Column → Bool) (f : Column → Column) (columns : List Column) :
    (Table.modifyFirst p f columns).length = columns.length := by
  induction columns with
  | nil => rfl
  | cons c columns ih =>
    rw [Table.modifyFirst]
    split
    · rfl
    · rw [List.length_cons, List.length_cons, ih]

theorem modify_last (columns : List Column) (c : Column) (f : Column → Column) :
    (columns ++ [c]).modify columns.length f = columns ++ [f c] := by
  induction columns with
  | nil => rfl
  | cons first columns ih =>
    rw [List.cons_append, List.length_cons, List.modify_succ_cons, ih, List.cons_append]

/-- Changing the first column that is meant and changing the last one keep out of each other's way, unless both are the
same column and the order matters there. -/
theorem modifyFirst_modify_last (hp : ∀ c, p (g c) = p c)
    (h : (∀ c, f (g c) = g (f c)) ∨ columns.dropLast.any p) :
    Table.modifyFirst p f (columns.modify (columns.length - 1) g) =
      (Table.modifyFirst p f columns).modify (columns.length - 1) g := by
  rcases List.eq_nil_or_concat' columns with rfl | ⟨before, c, rfl⟩
  · rfl
  · rw [List.dropLast_concat] at h
    have hlength : (before ++ [c]).length - 1 = before.length := by simp
    rw [hlength, modify_last, modifyFirst_append, modifyFirst_append]
    have hsame := length_modifyFirst p f before
    cases hany : before.any p with
    | true =>
      rw [if_pos rfl, if_pos rfl, ← hsame, modify_last]
    | false =>
      have hcomm : ∀ c, f (g c) = g (f c) := h.resolve_right (by simp [hany])
      have hone : Table.modifyFirst p f [g c] = [if p c then g (f c) else g c] := by
        rw [Table.modifyFirst, hp, hcomm]
        split <;> rfl
      have hold : Table.modifyFirst p f [c] = [if p c then f c else c] := by
        rw [Table.modifyFirst]
        split <;> rfl
      rw [if_neg Bool.false_ne_true, if_neg Bool.false_ne_true, hone, hold, modify_last]
      split <;> rfl

end

/-- One of the columns has the name. -/
def HasColumn (columns : List Column) (column : String) : Prop :=
  ∃ c ∈ columns, c.name = (column : Field String)

theorem HasColumn.any {columns : List Column} (h : HasColumn columns column) :
    columns.any fun c => c.name == (column : Field String) := by
  obtain ⟨c, hc, hname⟩ := h
  exact List.any_eq_true.mpr ⟨c, hc, beq_iff_eq.mpr hname⟩

theorem settled_append {columns : List Column} (h : HasColumn columns column) (more : List Column) :
    key.settled column (columns ++ more) = key.settled column columns ++ more := by
  unfold ColumnKey.settled
  cases key.kind with
  | primaryKey =>
    dsimp only
    rw [modifyFirst_append, if_pos h.any]
  | unique | references reference => rfl

theorem length_settled (key : ColumnKey) (column : String) (columns : List Column) :
    (key.settled column columns).length = columns.length := by
  unfold ColumnKey.settled
  cases key.kind with
  | primaryKey => exact length_modifyFirst _ _ columns
  | unique | references reference => rfl

/-- A change of the last column commutes with a key, unless it says anew whether the column of a primary key holds
nulls. -/
def AllowsChange (key : ColumnKey) (column : String) (columns : List Column) (f : Column → Column) : Prop :=
  key.kind ≠ .primaryKey ∨ (∀ c, { f c with nullable := false } = f { c with nullable := false }) ∨
    HasColumn columns.dropLast column

theorem settled_modify_last {f : Column → Column} {columns : List Column} (hname : ∀ c, (f c).name = c.name)
    (h : AllowsChange key column columns f) :
    key.settled column (columns.modify (columns.length - 1) f) =
      (key.settled column columns).modify (columns.length - 1) f := by
  unfold ColumnKey.settled
  cases hkind : key.kind with
  | primaryKey =>
    have h := h.resolve_left fun hne => hne hkind
    exact modifyFirst_modify_last (fun c => by rw [hname]) (h.imp_right HasColumn.any)
  | unique | references reference => rfl

theorem changeLast_added {f : Column → Column} (hname : ∀ c, (f c).name = c.name)
    (h : AllowsChange key column t.columns f) :
    changeLast (added default (key.byItself column) t) f = added default (key.byItself column) (changeLast t f) := by
  have hleft : changeLast (added default (key.byItself column) t) f =
      { added default (key.byItself column) t with
        columns := (key.settled column t.columns).modify (t.columns.length - 1) f } := by
    rw [← length_settled key column t.columns, ← columns_added default]
    rfl
  rw [hleft, ← settled_modify_last hname h]
  exact (added_withColumns default key column t _).symm

/-! ## Rules and elements without a constraint -/

/-- The rule declares a constraint. -/
def isConstraint : ColumnRule → Bool
  | .constraint _ => true
  | _ => false

/-- The element declares a constraint, or a column with one behind it. -/
def hasConstraint : TableElement → Bool
  | .column definition => definition.rules.any isConstraint
  | .constraint _ => true
  | .other _ => false

/-- A rule of a column commutes with a key, unless it lets the column of a primary key hold nulls. -/
theorem applyRule_added {rule : ColumnRule} (hrule : isConstraint rule = false)
    (h : (key.kind ≠ .primaryKey ∨ rule ≠ .null) ∨ HasColumn t.columns.dropLast column) :
    (applyRule default (added default (key.byItself column) t) rule).result =
      (applyRule default t rule).result.map (added default (key.byItself column)) := by
  have hchange {f : Column → Column} (hname : ∀ c, (f c).name = c.name) (h : AllowsChange key column t.columns f) :
      (Except.ok (changeLast (added default (key.byItself column) t) f) : Except Fault Table) =
        (Except.ok (changeLast t f) : Except Fault Table).map (added default (key.byItself column)) :=
    congrArg Except.ok (changeLast_added hname h)
  cases rule with
  | notNull => exact hchange (fun _ => rfl) (.inr (.inl fun _ => rfl))
  | null =>
    refine hchange (fun _ => rfl) ?_
    rcases h with (hkind | hnull) | hbefore
    · exact .inl hkind
    · exact absurd rfl hnull
    · exact .inr (.inr hbefore)
  | default value => exact hchange (fun _ => rfl) (.inr (.inl fun _ => rfl))
  | identity always options =>
    refine Logged.result_bind_map (x := .ofResult (identityOf always options)) (g := id) ?_ fun identity _ => ?_
    · cases identityOf always options <;> rfl
    · exact hchange (fun _ => rfl) (.inr (.inl fun _ => rfl))
  | constraint clause => contradiction

theorem hasColumn_dropLast_applyRule {rule : ColumnRule} (hrule : isConstraint rule = false)
    (h : HasColumn t.columns.dropLast column) (hstep : (applyRule default t rule).result = .ok t') :
    HasColumn t'.columns.dropLast column := by
  have hchange (f : Column → Column) : HasColumn (changeLast t f).columns.dropLast column := by
    rcases List.eq_nil_or_concat' t.columns with hnil | ⟨before, c, hcolumns⟩
    · rw [hnil] at h
      obtain ⟨c, hc, -⟩ := h
      contradiction
    · have hlength : (before ++ [c]).length - 1 = before.length := by simp
      unfold changeLast
      dsimp only
      rw [hcolumns, List.dropLast_concat] at h
      rw [hcolumns, hlength, modify_last, List.dropLast_concat]
      exact h
  cases rule with
  | notNull | null | default value =>
    obtain rfl := Except.ok.inj hstep
    exact hchange _
  | identity always options =>
    obtain ⟨identity, -, hstep⟩ := Logged.result_bind_eq_ok.mp hstep
    obtain rfl := Except.ok.inj hstep
    exact hchange _
  | constraint clause => contradiction

/-- The draft with the key in its table. -/
def Draft.withKey (default : String) (key : ColumnKey) (column : String) (d : Draft) : Draft :=
  { d with table := added default (key.byItself column) d.table }

/-- The type and the place of a column do not depend on keys that are there. -/
theorem addColumn_added (h : HasColumn d.table.columns column) (definition : ColumnDefinition) :
    addColumn default (d.withKey default key column) definition =
      (addColumn default d definition).map (Draft.withKey default key column) := by
  have hlength : (added default (key.byItself column) d.table).columns.length = d.table.columns.length := by
    rw [columns_added, length_settled]
  have happend (c : Column) : { added default (key.byItself column) d.table with
      columns := (added default (key.byItself column) d.table).columns ++ [c] } =
        added default (key.byItself column) { d.table with columns := d.table.columns ++ [c] } := by
    rw [columns_added, ← settled_append h]
    exact (added_withColumns default key column d.table _).symm
  obtain ⟨hschema, hname⟩ := name_added default key column d.table
  have htyped (position : Int) :
      typedColumn (added default (key.byItself column) d.table) definition.name position definition.type =
        typedColumn d.table definition.name position definition.type := by
    unfold typedColumn
    rw [hschema]
  have hserial (base : String) : serialSequence (added default (key.byItself column) d.table) definition.name base =
      serialSequence d.table definition.name base := by
    unfold serialSequence
    rw [hschema, hname]
  unfold addColumn Draft.withKey
  dsimp only
  rw [hlength, htyped]
  simp only [hserial, happend]
  cases (if definition.type.isArray then none else serialBase? definition.type.base) with
  | some base => rfl
  | none => cases typedColumn d.table definition.name _ definition.type <;> rfl

theorem exists_addColumn {definition : ColumnDefinition} {d' : Draft} (h : addColumn default d definition = .ok d') :
    ∃ c, c.name = (definition.name : Field String) ∧
      d'.table = { d.table with columns := d.table.columns ++ [c] } := by
  unfold addColumn at h
  dsimp only at h
  split at h
  · obtain rfl := Except.ok.inj h
    exact ⟨_, rfl, rfl⟩
  · obtain ⟨c, hc, h⟩ := exists_of_bind_eq_ok h
    obtain rfl := Except.ok.inj h
    have hsupply :=
      gives_typedColumn_supply d.table definition.name (Int.ofNat d.table.columns.length + 1) definition.type
    rw [hc] at hsupply
    exact ⟨c, congrArg Supply.name hsupply, rfl⟩

theorem HasColumn.of_map_fixedPart {columns columns' : List Column} (h : HasColumn columns column)
    (hsame : columns'.map fixedPart = columns.map fixedPart) : HasColumn columns' column := by
  obtain ⟨c, hc, hname⟩ := h
  have hmem : fixedPart c ∈ columns'.map fixedPart := hsame ▸ List.mem_map_of_mem hc
  obtain ⟨c', hc', hfixed⟩ := List.mem_map.mp hmem
  exact ⟨c', hc', (congrArg Column.name hfixed).trans hname⟩

theorem hasColumn_addElement {element : TableElement} {d' : Draft} (h : HasColumn d.table.columns column)
    (hstep : (addElement default d element).result = .ok d') : HasColumn d'.table.columns column := by
  have happend {c : Column} : HasColumn (d.table.columns ++ [c]) column := by
    obtain ⟨x, hx, hname⟩ := h
    exact ⟨x, List.mem_append_left _ hx, hname⟩
  cases gains_addElement hstep with
  | serial _ _ hedits => exact happend.of_map_fixedPart hedits.map_fixedPart_eq
  | typed _ _ hedits => exact happend.of_map_fixedPart hedits.map_fixedPart_eq
  | edited _ hedits => exact h.of_map_fixedPart hedits.map_fixedPart_eq

theorem applyRules_added {rules : List ColumnRule} (hrules : rules.any isConstraint = false)
    (h : (key.kind ≠ .primaryKey ∨ .null ∉ rules) ∨ HasColumn t.columns.dropLast column) :
    (rules.foldlM (applyRule default) (added default (key.byItself column) t)).result =
      (rules.foldlM (applyRule default) t).result.map (added default (key.byItself column)) := by
  rw [List.any_eq_false] at hrules
  have hnone {rule : ColumnRule} (hrule : rule ∈ rules) : isConstraint rule = false :=
    Bool.eq_false_of_not_eq_true (hrules rule hrule)
  refine Logged.foldlM_map_of_step
    (Q := fun t => (key.kind ≠ .primaryKey ∨ .null ∉ rules) ∨ HasColumn t.columns.dropLast column)
    (fun rule hrule _ _ h hstep => ?_) (fun rule hrule _ h => ?_) h
  · exact h.imp_right fun h => hasColumn_dropLast_applyRule (hnone hrule) h hstep
  · refine applyRule_added (hnone hrule) (h.imp_left fun h => h.imp_right fun hnull => ?_)
    rintro rfl
    exact hnull hrule

/-- An element without a constraint commutes with a key of a column that is there. -/
theorem addElement_added {element : TableElement} (helement : hasConstraint element = false)
    (h : HasColumn d.table.columns column) :
    (addElement default (d.withKey default key column) element).result =
      (addElement default d element).result.map (Draft.withKey default key column) := by
  cases element with
  | column definition =>
    refine Logged.result_bind_map (addColumn_added h definition) fun d' hd' => ?_
    obtain ⟨c, -, htable⟩ := exists_addColumn hd'
    have hbefore : HasColumn d'.table.columns.dropLast column := by
      rw [htable, List.dropLast_concat]
      exact h
    exact Logged.result_bind_map (applyRules_added helement (.inr hbefore)) fun _ _ => rfl
  | constraint clause => contradiction
  | other label => rfl

theorem addElements_added {elements : List TableElement} (helements : elements.any hasConstraint = false)
    (h : HasColumn d.table.columns column) :
    (elements.foldlM (addElement default) (d.withKey default key column)).result =
      (elements.foldlM (addElement default) d).result.map (Draft.withKey default key column) := by
  rw [List.any_eq_false] at helements
  exact Logged.foldlM_map_of_step (Q := fun d : Draft => HasColumn d.table.columns column)
    (fun _ _ _ _ h hstep => hasColumn_addElement h hstep)
    (fun element helement _ h => addElement_added (Bool.eq_false_of_not_eq_true (helements element helement)) h) h

/-! ## Both places in one table -/

theorem applyRules_behind (default : String) (key : ColumnKey) (column : String) (t : Table) :
    ((key.behind column).foldlM (applyRule default) t).result = .ok (added default (key.plain.byItself column) t) := by
  have hproperties (properties : List Reader.Property) (t : Table) :
      ((properties.map fun p => ColumnRule.constraint
        { column := some column, rule := .other (Reader.propertyLabel p) }).foldlM (applyRule default) t).result =
      .ok t := by
    induction properties generalizing t with
    | nil => rfl
    | cons p properties ih =>
      rw [List.map_cons, List.foldlM_cons, Logged.result_bind]
      exact ih t
  have hkey : (applyRule default t (.constraint
      { name := key.name, column := some column, rule := key.kind.rule false false })).result =
        .ok (added default (key.plain.byItself column) t) := by
    rw [← added_behind]
    exact result_addConstraint default t _
  rw [ColumnKey.behind, List.foldlM_cons, Logged.result_bind, hkey]
  exact hproperties key.properties _

/-- The definition of a table with a place behind one of its columns and one by itself, for the same key. -/
structure KeySite where
  /-- All but its elements. -/
  table : TableDefinition
  before : List TableElement := []
  column : String
  type : WrittenType
  /-- What stands behind the column in front of the key. -/
  front : List ColumnRule := []
  /-- What stands behind the column after the key. -/
  back : List ColumnRule := []
  /-- What stands between the column and the key by itself. -/
  between : List TableElement := []
  after : List TableElement := []
  /-- No constraint comes between the two places. -/
  noConstraint : back.any isConstraint = false ∧ between.any hasConstraint = false

namespace KeySite

/-- The column with the key behind it. -/
def columnWith (site : KeySite) (key : ColumnKey) : ColumnDefinition where
  name := site.column
  type := site.type
  rules := site.front ++ key.behind site.column ++ site.back

def columnWithout (site : KeySite) : ColumnDefinition where
  name := site.column
  type := site.type
  rules := site.front ++ site.back

/-- The definition with the key behind its column. -/
def behind (site : KeySite) (key : ColumnKey) : TableDefinition :=
  { site.table with elements := site.before ++ .column (site.columnWith key) :: site.between ++ site.after }

/-- The definition with the key by itself. -/
def byItself (site : KeySite) (key : ColumnKey) : TableDefinition :=
  { site.table with
    elements := site.before ++ .column site.columnWithout :: site.between ++
      .constraint (key.byItself site.column) :: site.after }

/-- The column is not said to hold nulls after it became a primary key. -/
def Suits (site : KeySite) (key : ColumnKey) : Prop :=
  key.kind ≠ .primaryKey ∨ .null ∉ site.back

/-- The draft up to the place of the key by itself. -/
def draft (site : KeySite) (default : String) (d : Draft) : Except Fault Draft :=
  ((site.before ++ .column site.columnWithout :: site.between).foldlM (addElement default) d).result

end KeySite

variable {site : KeySite}

theorem addElement_behind (h : site.Suits key) (d : Draft) :
    (addElement default d (.column (site.columnWith key))).result =
      (addElement default d (.column site.columnWithout)).result.map
        (Draft.withKey default key.plain site.column) := by
  have hfront (t : Table) : ((site.front ++ key.behind site.column).foldlM (applyRule default) t).result =
      (site.front.foldlM (applyRule default) t).result.map (added default (key.plain.byItself site.column)) := by
    rw [List.foldlM_append, Logged.result_bind]
    cases (site.front.foldlM (applyRule default) t).result with
    | error fault => rfl
    | ok t => exact applyRules_behind default key site.column t
  have hrules (t : Table) : ((site.columnWith key).rules.foldlM (applyRule default) t).result =
      (site.columnWithout.rules.foldlM (applyRule default) t).result.map
        (added default (key.plain.byItself site.column)) := by
    have hback (rules : List ColumnRule) : (rules ++ site.back).foldlM (applyRule default) t =
        rules.foldlM (applyRule default) t >>= fun t => site.back.foldlM (applyRule default) t := List.foldlM_append
    unfold KeySite.columnWith KeySite.columnWithout
    rw [hback, hback]
    refine Logged.result_bind_map (hfront t) fun t _ => ?_
    have hadded : (site.back.foldlM (applyRule default) (added default (key.plain.byItself site.column) t)).result =
        (site.back.foldlM (applyRule default) t).result.map (added default (key.plain.byItself site.column)) :=
      applyRules_added site.noConstraint.1 (.inl h)
    exact hadded
  have hcolumn : addColumn default d (site.columnWith key) = addColumn default d site.columnWithout := rfl
  refine Logged.result_bind_map (x := .ofResult (addColumn default d site.columnWithout)) (g := id) ?_ fun d' _ => ?_
  · show addColumn default d (site.columnWith key) = (addColumn default d site.columnWithout).map id
    rw [hcolumn]
    cases addColumn default d site.columnWithout <;> rfl
  · exact Logged.result_bind_map (hrules d'.table) fun _ _ => rfl

theorem hasColumn_addColumn {definition : ColumnDefinition} {d' : Draft}
    (h : (addElement default d (.column definition)).result = .ok d') : HasColumn d'.table.columns definition.name := by
  obtain ⟨next, hnext, h⟩ := Logged.result_bind_eq_ok.mp h
  obtain ⟨t, ht, h⟩ := Logged.result_bind_eq_ok.mp h
  obtain rfl := Except.ok.inj h
  obtain ⟨c, hname, htable⟩ := exists_addColumn hnext
  have hfirst : HasColumn next.table.columns definition.name := by
    rw [htable]
    exact ⟨c, List.mem_append_right _ List.mem_cons_self, hname⟩
  exact hfirst.of_map_fixedPart (edits_applyRules ht).map_fixedPart_eq

theorem addElement_byItself (default : String) (key : ColumnKey) (column : String) (d : Draft) :
    (addElement default d (.constraint (key.byItself column))).result = .ok (d.withKey default key column) := by
  have hadd := result_addConstraint default d.table (key.byItself column)
  unfold addElement
  rw [Logged.result_bind, hadd]
  rfl

/-- Behind its column a key becomes the same part of a table as by itself without its properties. -/
theorem addElements_behind (h : site.Suits key) (d : Draft) :
    ((site.before ++ TableElement.column (site.columnWith key) :: site.between).foldlM (addElement default) d).result =
      (site.draft default d).map (Draft.withKey default key.plain site.column) := by
  have hcolumn (d : Draft) : ((.column (site.columnWith key) :: site.between).foldlM (addElement default) d).result =
      ((.column site.columnWithout :: site.between).foldlM (addElement default) d).result.map
        (Draft.withKey default key.plain site.column) := by
    rw [List.foldlM_cons, List.foldlM_cons]
    exact Logged.result_bind_map (addElement_behind h d) fun d' hd' =>
      addElements_added site.noConstraint.2 (hasColumn_addColumn hd')
  unfold KeySite.draft
  rw [List.foldlM_append, List.foldlM_append, Logged.result_bind, Logged.result_bind]
  cases (site.before.foldlM (addElement default) d).result with
  | error fault => rfl
  | ok d => exact hcolumn d

/-- The draft with the key in its place and what comes after it. -/
def KeySite.drafted (site : KeySite) (default : String) (key : ColumnKey) (d : Draft) : Except Fault Draft := do
  let d ← site.draft default d
  (site.after.foldlM (addElement default) (d.withKey default key site.column)).result

theorem elements_behind (h : site.Suits key) (d : Draft) :
    ((site.behind key).elements.foldlM (addElement default) d).result = site.drafted default key.plain d := by
  unfold KeySite.behind KeySite.drafted
  dsimp only
  rw [List.foldlM_append, Logged.result_bind, addElements_behind h]
  cases site.draft default d <;> rfl

theorem elements_byItself (default : String) (site : KeySite) (key : ColumnKey) (d : Draft) :
    ((site.byItself key).elements.foldlM (addElement default) d).result = site.drafted default key d := by
  unfold KeySite.byItself KeySite.drafted KeySite.draft
  dsimp only
  rw [List.foldlM_append, Logged.result_bind]
  refine congrArg _ (funext fun d => ?_)
  rw [List.foldlM_cons, Logged.result_bind, addElement_byItself]
  rfl

theorem draftOf_behind (h : site.Suits key) :
    (draftOf default (site.behind key)).result = (draftOf default (site.byItself key.plain)).result := by
  refine Logged.result_bind_congr ?_ fun _ => rfl
  exact (elements_behind h _).trans (elements_byItself default site key.plain _).symm

/-! ## What is lost behind a column -/

/-- The constraints that an element declares. -/
def clausesOf : TableElement → List ConstraintClause
  | .column definition => definition.rules.filterMap fun rule => match rule with
    | .constraint clause => some clause
    | _ => none
  | .constraint clause => [clause]
  | .other _ => []

/-- The table with the constraint of that name checked at once. -/
def checkedAtOnce (name : String) (t : Table) : Table :=
  { t with constraints := t.constraints.modify name Constraint.atOnce }

def Draft.checkedAtOnce (name : String) (d : Draft) : Draft :=
  { d with table := Effect.checkedAtOnce name d.table }

section

variable {name : String} {k : Constraint}

/-- Which names are made for constraints does not depend on when others are checked. -/
theorem constraintOf_checkedAtOnce (name : String) (t : Table) (clause : ConstraintClause) :
    constraintOf default (checkedAtOnce name t) clause = constraintOf default t clause := by
  have hnames := Entries.names_modify t.constraints name Constraint.atOnce
  have hsize : (t.constraints.modify name Constraint.atOnce).size = t.constraints.size := by
    simpa only [Entries.names, List.length_map, Entries.size] using congrArg List.length hnames
  have hcontains : (t.constraints.modify name Constraint.atOnce).contains = t.constraints.contains := by
    funext n
    rw [Bool.eq_iff_iff, Entries.contains_iff_mem_names, Entries.contains_iff_mem_names, hnames]
  have hname (given : Option String) (columns : List String) (kind : String) :
      constraintName (checkedAtOnce name t) given columns kind = constraintName t given columns kind := by
    unfold constraintName checkedAtOnce
    dsimp only
    rw [hsize, hcontains]
  unfold constraintOf
  simp only [hname]
  rfl

theorem withoutNulls_checkedAtOnce (name : String) (t : Table) (columns : List String) :
    withoutNulls (checkedAtOnce name t) columns = checkedAtOnce name (withoutNulls t columns) := by
  unfold withoutNulls
  induction columns generalizing t with
  | nil => rfl
  | cons column columns ih =>
    rw [List.foldl_cons, List.foldl_cons, ← ih]
    rfl

/-- Constraints that a clause makes have the given name, or one that is free. -/
theorem name_constraintOf {c : Constraint} (h : constraintOf default t clause = some c) :
    Text.given clause.name = some c.name.spelled ∨
      Text.given clause.name = none ∧ t.constraints.contains c.name.spelled = false := by
  have hname (columns : List String) (kind : String) :
      Text.given clause.name = some (constraintName t clause.name columns kind) ∨
        Text.given clause.name = none ∧
          t.constraints.contains (constraintName t clause.name columns kind) = false := by
    cases hgiven : Text.given clause.name with
    | some given =>
      unfold constraintName
      rw [hgiven]
      exact .inl rfl
    | none => exact .inr ⟨rfl, not_contains_constraintName hgiven columns kind⟩
  unfold constraintOf at h
  dsimp only at h
  split at h
  all_goals
    first
    | obtain rfl := Option.some.inj h
      exact hname _ _
    | contradiction

/-- Another constraint is the same, and leaves the one of that name as it is. -/
theorem added_checkedAtOnce (default : String) (hother : Text.given clause.name ≠ some name)
    (h : t.constraints.get? name = some k) :
    added default clause (checkedAtOnce name t) = checkedAtOnce name (added default clause t) ∧
      (added default clause t).constraints.get? name = some k := by
  unfold added
  rw [constraintOf_checkedAtOnce]
  cases hc : constraintOf default t clause with
  | none => exact ⟨rfl, h⟩
  | some c =>
    have hne : c.name.spelled ≠ name := by
      rintro rfl
      rcases name_constraintOf hc with hgiven | ⟨-, hfree⟩
      · exact hother hgiven
      · rw [Entries.contains_of_get? h] at hfree
        contradiction
    have hput : putConstraint (checkedAtOnce name t) c = checkedAtOnce name (putConstraint t c) := by
      unfold putConstraint checkedAtOnce
      dsimp only
      rw [Entries.modify_put_other hne]
    have hkept : (putConstraint t c).constraints.get? name = some k := by
      unfold putConstraint
      rw [Entries.get?_put, if_neg (Ne.symm hne), h]
    dsimp only
    split
    · rw [hput, withoutNulls_checkedAtOnce, withoutNulls_eq]
      exact ⟨rfl, hkept⟩
    · exact ⟨hput, hkept⟩

theorem applyRule_checkedAtOnce {rule : ColumnRule}
    (hother : ∀ clause, rule = .constraint clause → Text.given clause.name ≠ some name)
    (h : t.constraints.get? name = some k) :
    (applyRule default (checkedAtOnce name t) rule).result =
        (applyRule default t rule).result.map (checkedAtOnce name) ∧
      ∀ t', (applyRule default t rule).result = .ok t' → t'.constraints.get? name = some k := by
  cases rule with
  | notNull | null | default value =>
    refine ⟨rfl, fun t' ht' => ?_⟩
    obtain rfl := Except.ok.inj ht'
    exact h
  | identity always options =>
    refine ⟨?_, fun t' ht' => ?_⟩
    · refine Logged.result_bind_map (x := .ofResult (identityOf always options)) (g := id) ?_ fun identity _ => rfl
      cases identityOf always options <;> rfl
    · obtain ⟨identity, -, ht'⟩ := Logged.result_bind_eq_ok.mp ht'
      obtain rfl := Except.ok.inj ht'
      exact h
  | constraint clause =>
    obtain ⟨hsame, hkept⟩ := added_checkedAtOnce default (hother clause rfl) h
    have hresult (t : Table) : (applyRule default t (.constraint clause)).result = .ok (added default clause t) :=
      result_addConstraint default t clause
    refine ⟨?_, fun t' ht' => ?_⟩
    · rw [hresult, hresult, hsame]
      rfl
    · rw [hresult] at ht'
      obtain rfl := Except.ok.inj ht'
      exact hkept

theorem addColumn_checkedAtOnce (name : String) (d : Draft) (definition : ColumnDefinition) :
    addColumn default (d.checkedAtOnce name) definition =
      (addColumn default d definition).map (Draft.checkedAtOnce name) := by
  unfold addColumn Draft.checkedAtOnce
  dsimp only
  cases (if definition.type.isArray then none else serialBase? definition.type.base) with
  | some base => rfl
  | none =>
    have htyped (position : Int) : typedColumn (checkedAtOnce name d.table) definition.name position definition.type =
        typedColumn d.table definition.name position definition.type := rfl
    have hlength : (checkedAtOnce name d.table).columns.length = d.table.columns.length := rfl
    dsimp only
    rw [hlength, htyped]
    cases typedColumn d.table definition.name _ definition.type <;> rfl

theorem addElement_checkedAtOnce {element : TableElement}
    (hother : ∀ clause ∈ clausesOf element, Text.given clause.name ≠ some name)
    (h : d.table.constraints.get? name = some k) :
    (addElement default (d.checkedAtOnce name) element).result =
        (addElement default d element).result.map (Draft.checkedAtOnce name) ∧
      ∀ d', (addElement default d element).result = .ok d' → d'.table.constraints.get? name = some k := by
  cases element with
  | column definition =>
    have hrule {rule : ColumnRule} (hrule : rule ∈ definition.rules) (clause : ConstraintClause)
        (heq : rule = .constraint clause) : Text.given clause.name ≠ some name :=
      hother clause (List.mem_filterMap.mpr ⟨rule, hrule, heq ▸ rfl⟩)
    have hthere {d' : Draft} (hd' : addColumn default d definition = .ok d') :
        d'.table.constraints.get? name = some k := by
      obtain ⟨c, -, htable⟩ := exists_addColumn hd'
      rw [htable]
      exact h
    refine ⟨?_, fun d' hd' => ?_⟩
    · refine Logged.result_bind_map (addColumn_checkedAtOnce name d definition) fun d' hd' => ?_
      refine Logged.result_bind_map (x := definition.rules.foldlM (applyRule default) d'.table) ?_ fun _ _ => rfl
      exact Logged.foldlM_map_of_step (Q := fun t : Table => t.constraints.get? name = some k)
        (fun rule hmem _ t' h hstep => (applyRule_checkedAtOnce (hrule hmem) h).2 t' hstep)
        (fun rule hmem _ h => (applyRule_checkedAtOnce (hrule hmem) h).1) (hthere hd')
    · obtain ⟨next, hnext, hd'⟩ := Logged.result_bind_eq_ok.mp hd'
      obtain ⟨t, ht, hd'⟩ := Logged.result_bind_eq_ok.mp hd'
      obtain rfl := Except.ok.inj hd'
      exact Logged.keeps_foldlM (Q := fun t : Table => t.constraints.get? name = some k)
        (fun rule hmem _ t' h hstep => (applyRule_checkedAtOnce (hrule hmem) h).2 t' hstep) (hthere hnext) ht
  | constraint clause =>
    obtain ⟨hsame, hkept⟩ := added_checkedAtOnce default (hother clause List.mem_cons_self) h
    have hresult (d : Draft) : (addElement default d (.constraint clause)).result =
        .ok { d with table := added default clause d.table } := by
      unfold addElement
      rw [Logged.result_bind, result_addConstraint]
      rfl
    refine ⟨?_, fun d' hd' => ?_⟩
    · rw [hresult, hresult]
      unfold Draft.checkedAtOnce
      dsimp only
      rw [hsame]
      rfl
    · rw [hresult] at hd'
      obtain rfl := Except.ok.inj hd'
      exact hkept
  | other label =>
    refine ⟨rfl, fun d' hd' => ?_⟩
    obtain rfl := Except.ok.inj hd'
    exact h

theorem addElements_checkedAtOnce (default : String) {elements : List TableElement}
    (hother : ∀ element ∈ elements, ∀ clause ∈ clausesOf element, Text.given clause.name ≠ some name)
    (h : d.table.constraints.get? name = some k) :
    (elements.foldlM (addElement default) (d.checkedAtOnce name)).result =
        (elements.foldlM (addElement default) d).result.map (Draft.checkedAtOnce name) ∧
      ∀ d', (elements.foldlM (addElement default) d).result = .ok d' → d'.table.constraints.get? name = some k := by
  refine ⟨?_, fun d' hd' => ?_⟩
  · exact Logged.foldlM_map_of_step (Q := fun d : Draft => d.table.constraints.get? name = some k)
      (fun element hmem _ d' h hstep => (addElement_checkedAtOnce (hother element hmem) h).2 d' hstep)
      (fun element hmem _ h => (addElement_checkedAtOnce (hother element hmem) h).1) h
  · exact Logged.keeps_foldlM (Q := fun d : Draft => d.table.constraints.get? name = some k)
      (fun element hmem _ d' h hstep => (addElement_checkedAtOnce (hother element hmem) h).2 d' hstep) h hd'

end

/-- No constraint behind the places of the key is given the name. -/
def KeySite.Spares (site : KeySite) (name : String) : Prop :=
  ∀ element ∈ site.after, ∀ clause ∈ clausesOf element, Text.given clause.name ≠ some name

/-- A foreign key as it is declared by itself, and the one that is left of it behind its column. -/
theorem exists_constraintOf_references (hdeferred : key.isDeferred) (default : String) (t : Table) (column : String) :
    ∃ k, constraintOf default t (key.byItself column) = some k ∧
      constraintOf default t (key.plain.byItself column) = some k.atOnce ∧
      k.kind = .foreignKey ∧ k.deferrable = (true : Field Bool) ∧
      k.initiallyDeferred = (key.properties.contains .deferred : Field Bool) := by
  unfold ColumnKey.isDeferred at hdeferred
  unfold ColumnKey.plain ColumnKey.byItself
  cases hkind : key.kind with
  | primaryKey | unique =>
    rw [hkind] at hdeferred
    contradiction
  | references reference =>
    rw [hkind] at hdeferred
    rw [show Reader.isDeferrable key.properties = true from hdeferred]
    exact ⟨_, rfl, rfl, rfl, rfl, rfl⟩

theorem added_references {k : Constraint} (hk : constraintOf default t clause = some k) (hkind : k.kind = .foreignKey) :
    added default clause t = putConstraint t k := by
  unfold added
  rw [hk]
  dsimp only
  rw [hkind, if_neg (by decide)]

/-- A key that is not always checked at once, as a table holds it. -/
structure Holds (default : String) (key : ColumnKey) (column name : String) (t : Table) (k : Constraint) : Prop where
  there : t.constraints.get? name = some k
  made : ∃ t, constraintOf default t (key.byItself column) = some k
  deferrable : k.deferrable = (true : Field Bool)
  initiallyDeferred : k.initiallyDeferred = (key.properties.contains .deferred : Field Bool)

/-- Behind its column the key is the same, but for the time at which it is checked. -/
theorem withKey_plain {k : Constraint} (hk : constraintOf default d.table (key.byItself column) = some k)
    (hplain : constraintOf default d.table (key.plain.byItself column) = some k.atOnce) (hkind : k.kind = .foreignKey) :
    d.withKey default key.plain column = (d.withKey default key column).checkedAtOnce k.name.spelled := by
  unfold Draft.withKey Draft.checkedAtOnce
  rw [added_references hk hkind, added_references hplain hkind]
  unfold putConstraint checkedAtOnce
  dsimp only
  rw [Entries.modify_put_self]
  rfl

/-- What is drafted with the key behind its column and by itself only differs in when the key is checked. -/
theorem exists_drafted (hdeferred : key.isDeferred) (site : KeySite) (default : String) (d : Draft) :
    ∃ name, (∀ given, Text.given key.name = some given → name = given) ∧ (site.Spares name →
      site.drafted default key.plain d = (site.drafted default key d).map (Draft.checkedAtOnce name) ∧
      ∀ d', site.drafted default key d = .ok d' → ∃ k, Holds default key site.column name d'.table k) := by
  unfold KeySite.drafted
  cases site.draft default d with
  | error fault => exact ⟨(Text.given key.name).getD "", fun _ h => by rw [h]; rfl, fun _ => ⟨rfl, nofun⟩⟩
  | ok d =>
    obtain ⟨k, hk, hplain, hkind, hdeferrable, hinitially⟩ :=
      exists_constraintOf_references hdeferred default d.table site.column
    refine ⟨k.name.spelled, fun given hgiven => ?_, fun hspares => ?_⟩
    · rcases name_constraintOf hk with hname | ⟨hnone, -⟩
      · exact Option.some.inj (hname.symm.trans hgiven)
      · rw [show (key.byItself site.column).name = key.name from rfl, hgiven] at hnone
        contradiction
    · have hplaced : (d.withKey default key site.column).table.constraints.get? k.name.spelled = some k := by
        unfold Draft.withKey
        rw [added_references hk hkind, putConstraint, Entries.get?_put, if_pos rfl]
      have hafter := addElements_checkedAtOnce default hspares hplaced
      rw [← withKey_plain hk hplain hkind] at hafter
      exact ⟨hafter.1, fun d' hd' => ⟨k, hafter.2 d' hd', ⟨d.table, hk⟩, hdeferrable, hinitially⟩⟩

/-- The draft of a table in front of its elements. -/
def newDraft (default : String) (definition : TableDefinition) : Draft where
  table := {
    schema := schemaOf default definition.relation
    name := definition.relation.name
    kind := if definition.isTemporary then .temporary else .base }

/-- The drafts of both definitions only differ in when the key is checked. -/
theorem exists_draftOf (hdeferred : key.isDeferred) (site : KeySite) (default : String) :
    ∃ name, (∀ given, Text.given key.name = some given → name = given) ∧ (site.Spares name →
      (draftOf default (site.behind key)).result =
        (draftOf default (site.byItself key)).result.map (Draft.checkedAtOnce name) ∧
      ∀ d, (draftOf default (site.byItself key)).result = .ok d →
        ∃ k, Holds default key site.column name d.table k) := by
  have hsuits : site.Suits key := by
    refine .inl fun hkind => ?_
    rw [ColumnKey.isDeferred, hkind] at hdeferred
    contradiction
  obtain ⟨name, hname, hdrafted⟩ := exists_drafted hdeferred site default (newDraft default site.table)
  refine ⟨name, hname, fun hspares => ?_⟩
  obtain ⟨hsame, hholds⟩ := hdrafted hspares
  rw [← elements_behind hsuits, ← elements_byItself] at hsame
  refine ⟨Logged.result_bind_map hsame fun d _ => ?_, fun d hd => ?_⟩
  · dsimp only [KeySite.behind, KeySite.byItself]
    cases site.table.partitioning <;> rfl
  · obtain ⟨drafted, hmade, hd⟩ := Logged.result_bind_eq_ok.mp hd
    obtain ⟨k, hk⟩ := hholds drafted ((elements_byItself default site key _).symm.trans hmade)
    have hconstraints : d.table.constraints = drafted.table.constraints := by
      split at hd <;> (obtain rfl := Except.ok.inj hd; rfl)
    exact ⟨k, { hk with there := hconstraints ▸ hk.there }⟩

/-! ## Scripts -/

theorem applyTo_behind (h : site.Suits key) (c : Catalog) :
    (applyTo default c (.createTable (site.behind key))).result =
      (applyTo default c (.createTable (site.byItself key.plain))).result :=
  Logged.result_bind_congr (draftOf_behind h) fun _ => rfl

/-- A script describes the same catalog with another definition of the same effect in it. -/
theorem result_catalogOf_of_applyTo {definition definition' : TableDefinition}
    (h : ∀ c, (applyTo default c (.createTable definition)).result =
      (applyTo default c (.createTable definition')).result)
    (earlier later : List Statement) :
    (catalogOf default (earlier ++ .createTable definition :: later)).result =
      (catalogOf default (earlier ++ .createTable definition' :: later)).result := by
  have hstep (progress : Progress) :
      (apply default progress (.createTable definition)).result =
        (apply default progress (.createTable definition')).result := by
    rw [result_apply (by simp), result_apply (by simp), h]
  have hinOrder (definition : TableDefinition) : inOrder (earlier ++ .createTable definition :: later) =
      earlier.filter (!·.isDependent) ++ .createTable definition ::
        (later.filter (!·.isDependent) ++ (earlier.filter (·.isDependent) ++ later.filter (·.isDependent))) := by
    simp [inOrder, Statement.isDependent]
  refine Logged.result_bind_congr ?_ fun progress => ?_
  · rw [hinOrder, hinOrder, List.foldlM_append, List.foldlM_append, Logged.result_bind, Logged.result_bind]
    refine congrArg _ (funext fun progress => ?_)
    rw [List.foldlM_cons, List.foldlM_cons, Logged.result_bind, Logged.result_bind, hstep]
  · dsimp only
    split <;> rfl

/-- Behind its column a key says what it says by itself without its properties. -/
theorem catalogOf_behind (h : site.Suits key) (earlier later : List Statement) :
    (catalogOf default (earlier ++ .createTable (site.behind key) :: later)).result =
      (catalogOf default (earlier ++ .createTable (site.byItself key.plain) :: later)).result :=
  result_catalogOf_of_applyTo (applyTo_behind h) earlier later

theorem modifyTable_updateSchema (c : Catalog) (schema name : String) (f : Schema → Schema) (t : Table)
    (g : Table → Table) :
    (c.updateSchema schema fun s => { f s with tables := (f s).tables.put name t }).modifyTable schema name g =
      c.updateSchema schema fun s => { f s with tables := (f s).tables.put name (g t) } := by
  unfold Catalog.modifyTable Catalog.updateSchema
  dsimp only
  rw [Entries.modify_put_self, Entries.modify_put_self]

/-- Where a key is not always checked at once, its place only makes a difference to when it is checked. -/
theorem exists_effect (hdeferred : key.isDeferred) (site : KeySite) (default : String) :
    ∃ name, (∀ given, Text.given key.name = some given → name = given) ∧ (site.Spares name → ∀ c,
      effect default c (.createTable (site.behind key)) =
        (effect default c (.createTable (site.byItself key))).map
          (·.modifyTable (schemaOf default site.table.relation) site.table.relation.name (checkedAtOnce name)) ∧
      ∀ c', effect default c (.createTable (site.byItself key)) = .ok c' →
        ∃ t k, c'.findTable? (schemaOf default site.table.relation) site.table.relation.name = some t ∧
          Holds default key site.column name t k) := by
  obtain ⟨name, hname, hdraft⟩ := exists_draftOf hdeferred site default
  refine ⟨name, hname, fun hspares c => ?_⟩
  obtain ⟨hsame, hholds⟩ := hdraft hspares
  refine ⟨Logged.result_bind_map hsame fun d _ => ?_, fun c' hc' => ?_⟩
  · have hput := modifyTable_updateSchema c (schemaOf default site.table.relation) site.table.relation.name
      (putSequences d.sequences) d.table (checkedAtOnce name)
    -- whether the log has an entry about the parents makes no difference
    dsimp only
    split <;> split
    all_goals exact congrArg Except.ok (congrArg (fun filed : Catalog =>
      { filed with partitions := c.partitions ++ (attachmentOf default (site.byItself key)).toList }) hput.symm)
  · obtain ⟨d, hd, -⟩ := Logged.result_bind_eq_ok.mp hc'
    obtain ⟨k, hk⟩ := hholds d hd
    have hfound : c'.findTable? (schemaOf default (site.byItself key).relation) (site.byItself key).relation.name =
        some d.table := findTable?_createTable hd hc'
    exact ⟨d.table, k, hfound, hk⟩

/-- A key means the same behind its column and by itself, unless it is a foreign key that is not always checked at once:
behind its column it is, and nothing else is different. -/
theorem catalog_of_places {sql sql' : String} (default : String) (hsuits : site.Suits key)
    (earlier later : List Statement)
    (hbehind : Sql.statements sql = .ok (earlier ++ .createTable (site.behind key) :: later))
    (hitself : Sql.statements sql' = .ok (earlier ++ .createTable (site.byItself key) :: later)) :
    (key.isDeferred = false → (Catalog.ofSql sql default).result = (Catalog.ofSql sql' default).result) ∧
    (key.isDeferred → ∃ name, (∀ given, Text.given key.name = some given → name = given) ∧
      (site.Spares name → ∀ c,
        effect default c (.createTable (site.behind key)) =
          (effect default c (.createTable (site.byItself key))).map
            (·.modifyTable (schemaOf default site.table.relation) site.table.relation.name (checkedAtOnce name)) ∧
        ∀ c', effect default c (.createTable (site.byItself key)) = .ok c' →
          ∃ t k, c'.findTable? (schemaOf default site.table.relation) site.table.relation.name = some t ∧
            Holds default key site.column name t k)) := by
  refine ⟨fun hplain => ?_, fun hdeferred => exists_effect hdeferred site default⟩
  have hkey : site.byItself key.plain = site.byItself key := by
    unfold KeySite.byItself
    rw [ColumnKey.byItself_plain hplain]
  rw [Catalog.ofSql_of_ok hbehind, Catalog.ofSql_of_ok hitself, ← hkey]
  exact catalogOf_behind hsuits earlier later

/-- Seats, whose rooms are to be checked at the end of a transaction. -/
def seatsSite : KeySite where
  table := { relation := { name := "seats" } }
  column := "room"
  type := .ofKeyword "int4"
  between := [.column { name := "note", type := { path := ["text"] } }]
  noConstraint := by decide

def roomKey : ColumnKey where
  kind := .references { table := { name := "rooms" }, columns := ["id"], onDelete := .cascade }
  properties := [.deferrable, .deferred]

def roomBehind : String :=
  "create table seats (room int references rooms (id) on delete cascade deferrable initially deferred, note text)"

def roomByItself : String :=
  "create table seats (room int, note text,
     foreign key (room) references rooms (id) on delete cascade deferrable initially deferred)"

theorem room_checked_at_once : ∃ name c t k,
    Sql.statements roomBehind = .ok [.createTable (seatsSite.behind roomKey)] ∧
    Sql.statements roomByItself = .ok [.createTable (seatsSite.byItself roomKey)] ∧
    seatsSite.Suits roomKey ∧ roomKey.isDeferred ∧ seatsSite.Spares name ∧
    effect "public" start (.createTable (seatsSite.byItself roomKey)) = .ok c ∧
    effect "public" start (.createTable (seatsSite.behind roomKey)) =
      .ok (c.modifyTable "public" "seats" (checkedAtOnce name)) ∧
    c.findTable? "public" "seats" = some t ∧ Holds "public" roomKey "room" name t k := by
  have hbehind : (Sql.statements roomBehind).toOption = some [.createTable (seatsSite.behind roomKey)] := by
    decide +kernel
  have hitself : (Sql.statements roomByItself).toOption = some [.createTable (seatsSite.byItself roomKey)] := by
    decide +kernel
  have haccepted : (effect "public" start (.createTable (seatsSite.byItself roomKey))).toOption.isSome := by
    decide +kernel
  have hsuits : seatsSite.Suits roomKey := .inl (by decide)
  obtain ⟨name, -, hplaces⟩ := (catalog_of_places "public" hsuits [] [] (eq_ok_of_toOption hbehind)
    (eq_ok_of_toOption hitself)).2 rfl
  have hspares : seatsSite.Spares name := fun _ helement => nomatch helement
  obtain ⟨c, hc⟩ := Option.isSome_iff_exists.mp haccepted
  have hc := eq_ok_of_toOption hc
  obtain ⟨hsame, hholds⟩ := hplaces hspares start
  obtain ⟨t, k, ht, hk⟩ := hholds c hc
  rw [hc] at hsame
  exact ⟨name, c, t, k, eq_ok_of_toOption hbehind, eq_ok_of_toOption hitself, hsuits, rfl, hspares, hc, hsame, ht, hk⟩

end Effect
end SchemaScript
