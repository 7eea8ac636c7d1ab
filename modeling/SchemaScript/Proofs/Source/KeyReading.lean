import SchemaScript.Proofs.Effect.Creation
import SchemaScript.Proofs.Effect.KeyPlaces
import SchemaScript.Proofs.Sql.KeyStatement

/-!
# Keys that are read again

Behind a statement that creates its table, what is written of a key adds the same key to that table: with its columns
in their order, with what it says of the table that it refers to, and with its comment (`key_read_again`). A comment
may be any text that can be read at all; the text of a script ends at its first zero character (`zero_comment_lost`).
-/

namespace SchemaScript

open Sql

/-! ## Keys -/

/-- What a foreign key says of the rows that it refers to. -/
structure Referral where
  schema : String
  table : String
  columns : List String := []
  onUpdate : ReferentialAction := .noAction
  onDelete : ReferentialAction := .noAction
  deferral : Deferral := .never

inductive KeyRule
  | primaryKey
  | unique
  | foreignKey (referral : Referral)

/-- A key of a table of this schema. -/
structure TableKey where
  schema : String
  table : String
  name : String
  columns : List String
  rule : KeyRule
  comment : Option String := none

def Sql.Deferral.isAllowed (deferral : Deferral) : Bool :=
  deferral != .never

def Sql.Deferral.isInitial (deferral : Deferral) : Bool :=
  deferral == .initially

namespace TableKey

/-- The key as a catalog keeps it. -/
def constraint (key : TableKey) : Constraint :=
  let own (kind : ConstraintKind) : Constraint := {
    schema := key.schema
    table := key.table
    name := key.name
    kind
    columns := Effect.keyColumns key.columns
    comment := key.comment }
  match key.rule with
  | .primaryKey => own .primaryKey
  | .unique => own .unique
  | .foreignKey referral => { own .foreignKey with
      referencedSchema := referral.schema
      referencedTable := referral.table
      referencedColumns := Effect.keyColumns referral.columns
      onUpdate := referral.onUpdate.text
      onDelete := referral.onDelete.text
      deferrable := referral.deferral.isAllowed
      initiallyDeferred := referral.deferral.isInitial }

/-- The names in the key can be written and read. -/
structure IsProper (key : TableKey) : Prop where
  table : IsProperName key.table
  name : IsProperName key.name
  nonempty : key.columns ≠ []
  columns : ∀ n ∈ key.columns, IsProperName n
  referral : ∀ referral, key.rule = .foreignKey referral →
    IsProperName referral.schema ∧ IsProperName referral.table ∧ ∀ n ∈ referral.columns, IsProperName n

/-- The key as its statement adds it. -/
def added (key : TableKey) : AddedKey where
  table := [key.table]
  name := key.name
  columns := key.columns
  kind :=
    match key.rule with
    | .primaryKey => .primaryKey
    | .unique => .unique
    | .foreignKey referral => .references {
        table := .ofPath (Ddl.path referral.schema referral.table (some key.schema))
        columns := referral.columns
        onUpdate := referral.onUpdate
        onDelete := referral.onDelete }
  deferral :=
    match key.rule with
    | .foreignKey referral => referral.deferral
    | _ => .never

end TableKey

section

variable {key : TableKey} {schema table : String} {names : List String}

theorem Ddl.path_cases (schema table target : String) (h : schema ≠ "") :
    path schema table (some target) = if schema = target then [table] else [schema, table] := by
  have hname : (table : Field String).spelled = table := rfl
  unfold path
  rw [Field.given_text, if_neg h, hname, Text.given_eq_some_iff.mpr ⟨rfl, h⟩]
  by_cases htarget : schema = target <;> simp [htarget]

theorem Ddl.path_ofPath (schema table default : String) (h : schema ≠ "") :
    (RelationName.ofPath (path schema table (some default))).path = path schema table (some default) := by
  rw [path_cases schema table default h]
  split <;> rfl

/-- What a path is written for is what it is read as. -/
theorem Effect.schemaOf_path (schema table default : String) (hschema : schema ≠ "") :
    schemaOf default (.ofPath (Ddl.path schema table (some default))) = schema ∧
      (RelationName.ofPath (Ddl.path schema table (some default))).name = table := by
  rw [Ddl.path_cases schema table default hschema]
  split
  · next hsame => exact ⟨hsame.symm, rfl⟩
  · have hgiven : Text.given (some schema) = some schema := Text.given_eq_some_iff.mpr ⟨rfl, hschema⟩
    exact ⟨congrArg (Option.getD · default) hgiven, rfl⟩

/-! ## The statement -/

theorem isPath_path (default : String) (hschema : IsProperName schema) (htable : IsProperName table) :
    IsPath (Ddl.path schema table (some default)) := by
  rw [Ddl.path_cases schema table default hschema.nonempty]
  split
  · exact ⟨List.cons_ne_nil _ _, List.forall_mem_singleton.mpr htable.isKept, by simp⟩
  · exact ⟨List.cons_ne_nil _ _, List.forall_mem_cons.mpr ⟨hschema.isKept,
      List.forall_mem_singleton.mpr htable.isKept⟩, by simp⟩

theorem columnList?_keyColumns (h : ∀ n ∈ names, n ≠ "") :
    Constraint.columnList? (Effect.keyColumns names) = some (listText names) := by
  have hgiven : (Effect.keyColumns names).all fun c => c.name.isGiven := by
    refine List.all_eq_true.mpr fun c hc => ?_
    obtain ⟨i, hi, rfl⟩ := List.mem_mapIdx.mp hc
    exact Field.isGiven_text (h _ (List.getElem_mem hi))
  have hnames : (Effect.keyColumns names).map (fun c => Ddl.nameText c.name) = names.map quoteName := by
    refine List.ext_getElem (by simp [Effect.keyColumns]) fun i _ hi => ?_
    rw [List.length_map] at hi
    simp only [Effect.keyColumns, List.getElem_map, List.getElem_mapIdx]
    rfl
  rw [Constraint.columnList?, if_pos hgiven, hnames]
  rfl

theorem ruleText_action (event : String) (action : ReferentialAction) :
    Constraint.ruleText ("ON " ++ event) (action.text : Field String) =
      String.join ((action.pieces event).map (" " ++ ·)) := by
  have hsaid (text : String) (h : text ≠ "" ∧ text ≠ "NO ACTION") :
      Constraint.ruleText ("ON " ++ event) (text : Field String) = " " ++ ("ON " ++ event) ++ " " ++ text := by
    rw [Constraint.ruleText, Field.given_text, if_neg h.1]
    exact if_neg (by simpa using h.2)
  cases action with
  | noAction => rfl
  | _ =>
    refine (hsaid _ (by decide)).trans ?_
    simp [ReferentialAction.pieces, String.append_assoc]

namespace TableKey

/-- What a key has of its own, whatever its rule is. -/
theorem constraint_own (key : TableKey) :
    key.constraint.schema = key.schema ∧ key.constraint.table = key.table ∧ key.constraint.name = key.name ∧
      key.constraint.columns = Effect.keyColumns key.columns ∧ key.constraint.comment = key.comment := by
  unfold constraint
  cases key.rule <;> exact ⟨rfl, rfl, rfl, rfl, rfl⟩

theorem constraint_withComment (key : TableKey) (comment : Option String) :
    { key.constraint with comment := comment } = ({ key with comment } : TableKey).constraint := by
  unfold constraint
  cases key.rule <;> rfl

theorem columns_constraint (key : TableKey) : key.constraint.columns = Effect.keyColumns key.columns :=
  key.constraint_own.2.2.2.1

theorem columnList?_sorted (h : ∀ n ∈ names, IsProperName n) :
    Constraint.columnList? (byPosition (·.position) (Effect.keyColumns names)) = some (listText names) := by
  have hnumbered : Numbered KeyColumn.position (Effect.keyColumns names) := numbered_mapIdx names fun _ _ => rfl
  rw [hnumbered.byPosition_eq]
  exact columnList?_keyColumns fun n hn => (h n hn).nonempty

theorem deferralText_constraint {referral : Referral} (h : key.rule = .foreignKey referral) :
    key.constraint.deferralText = String.join (referral.deferral.pieces.map (" " ++ ·)) := by
  rw [constraint, h]
  obtain ⟨_, _, _, _, _, deferral⟩ := referral
  cases deferral <;> rfl

theorem reference_constraint {referral : Referral} (h : key.rule = .foreignKey referral)
    (hschema : referral.schema ≠ "") (htable : referral.table ≠ "") (target : Option String) :
    Ddl.reference key.constraint.foreignSchema key.constraint.referencedTable target =
      pathText (Ddl.path referral.schema referral.table target) := by
  have hforeign : key.constraint.foreignSchema = referral.schema := by
    rw [Constraint.foreignSchema, constraint, h]
    exact if_pos (Field.isGiven_text hschema)
  have hname : key.constraint.referencedTable = referral.table := by rw [constraint, h]
  rw [hforeign, hname, Ddl.reference_eq_pathText (Field.isGiven_text htable)]

/-- What the clause of a foreign key has behind the table that it refers to. -/
theorem foreignKeyClause_constraint {referral : Referral} (hproper : key.IsProper)
    (h : key.rule = .foreignKey referral) :
    key.constraint.foreignKeyClause (some key.schema) (listText key.columns) (listText referral.columns) =
      " ".intercalate (key.added.kind.pieces key.columns ++ key.added.deferral.pieces) := by
  obtain ⟨hschema, htable, -⟩ := hproper.referral referral h
  have hreference := reference_constraint h hschema.nonempty htable.nonempty (some key.schema)
  have hwritten : (key.constraint.columns.isEmpty || !key.constraint.referencedTable.isGiven) = false := by
    have hsome : (Effect.keyColumns key.columns).isEmpty = false := by
      simpa [Effect.keyColumns] using hproper.nonempty
    have hname : key.constraint.referencedTable = referral.table := by rw [constraint, h]
    rw [columns_constraint, hsome, hname, Field.isGiven_text htable.nonempty]
    rfl
  have hlist : (if key.constraint.referencedColumns.isEmpty then "" else " " ++ listText referral.columns) =
      String.join ((listPieces referral.columns).map (" " ++ ·)) := by
    have hcolumns : key.constraint.referencedColumns = Effect.keyColumns referral.columns := by rw [constraint, h]
    rw [hcolumns]
    unfold listPieces
    cases referral.columns with
    | nil => rfl
    | cons n ns => simp [Effect.keyColumns]
  have honUpdate : key.constraint.onUpdate = referral.onUpdate.text := by rw [constraint, h]
  have honDelete : key.constraint.onDelete = referral.onDelete.text := by rw [constraint, h]
  have hupdate := ruleText_action "UPDATE" referral.onUpdate
  have hdelete := ruleText_action "DELETE" referral.onDelete
  rw [Constraint.foreignKeyClause, hwritten, hreference, deferralText_constraint h, hlist, honUpdate, honDelete]
  have hpath := Ddl.path_ofPath referral.schema referral.table key.schema hschema.nonempty
  rw [if_neg Bool.false_ne_true]
  simp only [added, h, KeyKind.pieces, Reference.pieces, hpath, List.cons_append, intercalate_blank, List.map_append,
    String.join_append, List.map_cons, String.join_cons, String.append_assoc, ← hupdate, ← hdelete]
  rfl

theorem clause_constraint (h : key.IsProper) : key.constraint.clause (some key.schema) =
    " ".intercalate (key.added.kind.pieces key.columns ++ key.added.deferral.pieces) := by
  have hown : Constraint.columnList? key.constraint.sortedColumns = some (listText key.columns) := by
    rw [Constraint.sortedColumns, columns_constraint]
    exact columnList?_sorted h.columns
  have hsome : key.constraint.columns.isEmpty = false := by
    rw [columns_constraint]
    simpa [Effect.keyColumns] using h.nonempty
  cases hrule : key.rule with
  | primaryKey | unique =>
    have hreferenced : Constraint.columnList? key.constraint.sortedReferencedColumns = some (listText []) := by
      rw [constraint, hrule]
      rfl
    rw [Constraint.clause, hown, hreferenced, hsome]
    simp [constraint, added, hrule, KeyKind.pieces, Deferral.pieces]
  | foreignKey referral =>
    obtain ⟨hschema, htable, hcolumns⟩ := h.referral referral hrule
    have hkind : key.constraint.kind = .foreignKey := by rw [constraint, hrule]
    have hreferenced : Constraint.columnList? key.constraint.sortedReferencedColumns =
        some (listText referral.columns) := by
      rw [constraint, hrule]
      exact columnList?_sorted hcolumns
    rw [Constraint.clause, hown, hreferenced, hkind]
    exact foreignKeyClause_constraint h hrule

theorem ddl_constraint (h : key.IsProper) : key.constraint.ddl (some key.schema) = key.added.text ++ ";" ++
    Ddl.commentAfter ("CONSTRAINT " ++ quoteName key.name ++ " ON " ++ pathText [key.table]) key.comment := by
  obtain ⟨first, others, hpieces, hfirst⟩ : ∃ first others,
      key.added.kind.pieces key.columns ++ key.added.deferral.pieces = first :: others ∧ first ≠ "" := by
    cases key.added.kind <;> exact ⟨_, _, rfl, by decide⟩
  have hclause := clause_constraint h
  rw [hpieces] at hclause
  have hsaid : key.constraint.clause (some key.schema) ≠ "" := by
    rw [hclause, intercalate_blank]
    simp [hfirst]
  obtain ⟨hschema, htable, hname, -, hcomment⟩ := key.constraint_own
  have hreference : Ddl.reference key.constraint.schema key.constraint.table (some key.schema) =
      pathText [key.table] := by
    rw [hschema, htable, Ddl.reference_eq_pathText (Field.isGiven_text h.table.nonempty)]
    exact congrArg pathText (Ddl.path_target key.schema key.table)
  have hgiven : key.constraint.name.given = some key.name := by
    rw [hname, Field.given_text, if_neg h.name.nonempty]
  have hwritten : (key.constraint.clause (some key.schema) == "" || !key.constraint.table.isGiven) = false := by
    rw [htable, Field.isGiven_text h.table.nonempty, beq_eq_false_iff_ne.mpr hsaid]
    rfl
  have htext : key.added.text = "ALTER TABLE " ++ pathText [key.table] ++ " ADD CONSTRAINT " ++ quoteName key.name ++
      " " ++ key.constraint.clause (some key.schema) := by
    have hall : key.added.pieces = "ALTER TABLE" :: pathText [key.table] :: "ADD CONSTRAINT" :: quoteName key.name ::
        (key.added.kind.pieces key.columns ++ key.added.deferral.pieces) := rfl
    rw [hclause, AddedKey.text, hall, hpieces]
    simp only [String.intercalate_cons_cons, String.append_assoc]
    rfl
  unfold Constraint.ddl
  dsimp only
  rw [hwritten, if_neg Bool.false_ne_true, hgiven, hreference, hcomment, htext]

theorem IsProper.isKept (h : key.IsProper) : key.added.IsKept where
  table := ⟨List.cons_ne_nil _ _, List.forall_mem_singleton.mpr h.table.isKept, by simp [added]⟩
  name := h.name.isKept
  nonempty := h.nonempty
  columns n hn := (h.columns n hn).isKept
  reference reference hreference := by
    unfold added at hreference
    cases hrule : key.rule with
    | primaryKey | unique =>
      rw [hrule] at hreference
      contradiction
    | foreignKey referral =>
      obtain ⟨hschema, htable, hcolumns⟩ := h.referral referral hrule
      rw [hrule] at hreference
      obtain rfl := KeyKind.references.inj hreference
      dsimp only
      rw [Ddl.path_ofPath referral.schema referral.table key.schema hschema.nonempty]
      exact ⟨isPath_path key.schema hschema htable, fun n hn => (hcolumns n hn).isKept⟩

/-- Read again, the clause makes the key; its comment is not part of it. -/
theorem constraintOf_clause (h : key.IsProper) {t : Table} (hschema : t.schema = key.schema)
    (hname : t.name = key.table) : Effect.constraintOf key.schema t key.added.clause =
      some ({ key with comment := none } : TableKey).constraint := by
  obtain ⟨schema, table, name, columns, rule, comment⟩ := key
  have hgiven : Text.given (some name) = some name := Text.given_eq_some_iff.mpr ⟨rfl, h.name.nonempty⟩
  have hcalled (columns : List String) (kind : String) : Effect.constraintName t (some name) columns kind = name := by
    rw [Effect.constraintName, hgiven]
  cases rule with
  | primaryKey | unique =>
    dsimp only [Effect.constraintOf, AddedKey.clause, ColumnKey.listing, ColumnKey.byItself, AddedKey.columnKey, added,
      KeyKind.rule, constraint]
    rw [hcalled, hschema, hname]
    rfl
  | foreignKey referral =>
    obtain ⟨hreferred, -, -⟩ := h.referral referral rfl
    obtain ⟨hholder, htable⟩ := Effect.schemaOf_path referral.schema referral.table schema hreferred.nonempty
    have hallowed : Reader.isDeferrable referral.deferral.properties = referral.deferral.isAllowed := by
      cases referral.deferral <;> rfl
    have hinitial : referral.deferral.properties.contains .deferred = referral.deferral.isInitial := by
      cases referral.deferral <;> rfl
    dsimp only [Effect.constraintOf, AddedKey.clause, ColumnKey.listing, ColumnKey.byItself, AddedKey.columnKey, added,
      KeyKind.rule, constraint]
    rw [hallowed, hinitial, hholder, htable, hcalled, hschema, hname]
    rfl

end TableKey

end

/-! ## What the statements leave behind -/

/-- The constraint of this name that a table of the catalog has. -/
def Catalog.constraint? (c : Catalog) (schema table name : String) : Option Constraint :=
  (c.findTable? schema table).bind fun t => t.constraints.get? name

namespace Effect

variable {default schema table name : String} {c : Catalog} {t : Table} {k : Constraint}

theorem constraint?_inheritAll (c : Catalog) (schema table name : String) :
    (inheritAll c).constraint? schema table name = c.constraint? schema table name := by
  have hsame := map_inheritAll (f := fun t => t.constraints.get? name) (fun _ _ => rfl) c schema table
  have hfound := congrArg (Option.bind · id) hsame
  simp only [Option.bind_map, Function.id_comp] at hfound
  exact hfound

/-- A table that is changed has what it is changed to. -/
theorem constraint?_modifyTable (ht : c.findTable? schema table = some t) (t' : Table) (name : String) :
    (c.modifyTable schema table fun _ => t').constraint? schema table name = t'.constraints.get? name := by
  rw [Catalog.constraint?, Catalog.findTable?_modifyTable, if_pos ⟨rfl, rfl⟩, ht]
  rfl

theorem constraints_withoutNulls (columns : List String) (t : Table) :
    (withoutNulls t columns).constraints = t.constraints := by
  induction columns generalizing t with
  | nil => rfl
  | cons column columns ih => exact ih _

/-- A constraint that is added to a table is there afterwards. -/
theorem exists_effect_addConstraint (relation : RelationName) {clause : ConstraintClause}
    (ht : c.findTable? (schemaOf default relation) relation.name = some t)
    (hk : constraintOf default t clause = some k) :
    ∃ c', effect default c (.alterTable relation [.addConstraint clause]) = .ok c' ∧
      c'.constraint? (schemaOf default relation) relation.name k.name.spelled = some k := by
  have hadded : (added default clause t).constraints.get? k.name.spelled = some k := by
    unfold added
    rw [hk]
    dsimp only
    split
    · rw [constraints_withoutNulls, putConstraint, Entries.get?_put, if_pos rfl]
    · rw [putConstraint, Entries.get?_put, if_pos rfl]
  have hcommand : ([.addConstraint clause].foldlM (applyCommand default) { table := t }).result =
      .ok { table := added default clause t } := by
    rw [List.foldlM_cons, Logged.result_bind, applyCommand, Logged.result_bind, result_addConstraint]
    rfl
  have hresult : effect default c (.alterTable relation [.addConstraint clause]) =
      .ok { c.modifyTable (schemaOf default relation) relation.name fun _ => added default clause t with
        partitions := c.partitions ++ [] } := by
    show (alterTable default c relation [.addConstraint clause]).result = _
    unfold alterTable
    dsimp only
    rw [ht]
    dsimp only
    rw [Logged.result_bind, hcommand]
    rfl
  exact ⟨_, hresult, (constraint?_modifyTable ht (added default clause t) _).trans hadded⟩

theorem exists_effect_comment (hk : c.constraint? default table name = some k) (text : Option String) :
    ∃ c', effect default c (.comment .constraint [table, name] text) = .ok c' ∧
      c'.constraint? default table name = some { k with comment := text } := by
  obtain ⟨t, ht, hk⟩ := Option.bind_eq_some_iff.mp hk
  have hpart : commentPart? t .constraint name text =
      some { t with constraints := t.constraints.put name { k with comment := text } } := by
    rw [commentPart?, changeNamed?_of_get? hk, Option.map_some]
  have hset : commentOnPart? default c .constraint [table, name] text =
      some (c.modifyTable default table fun _ =>
        { t with constraints := t.constraints.put name { k with comment := text } }) := by
    have hpath : splitPath default [table, name].dropLast = (default, table) := rfl
    have hlast : [table, name].getLastD "" = name := rfl
    simp only [commentOnPart?, hpath, hlast, ht, hpart, Option.map_some]
  have hput : (t.constraints.put name { k with comment := text }).get? name = some { k with comment := text } := by
    rw [Entries.get?_put, if_pos rfl]
  refine ⟨_, ?_, (constraint?_modifyTable ht
    { t with constraints := t.constraints.put name { k with comment := text } } name).trans hput⟩
  show (comment default c .constraint [table, name] text).result = _
  rw [comment, commentOn?, hset]
  rfl

theorem exists_effect_createTable {definition : TableDefinition} {draft : Draft}
    (hdraft : (draftOf default definition).result = .ok draft) (c : Catalog) :
    ∃ c', effect default c (.createTable definition) = .ok c' ∧
      c'.findTable? (schemaOf default definition.relation) definition.relation.name = some draft.table := by
  have hresult : ∃ c', effect default c (.createTable definition) = .ok c' := by
    show ∃ c', (createTable default c definition).result = .ok c'
    unfold createTable
    rw [Logged.result_bind, hdraft]
    dsimp only
    split <;> exact ⟨_, rfl⟩
  obtain ⟨c', hc'⟩ := hresult
  exact ⟨c', hc', findTable?_createTable hdraft hc'⟩

/-- A table is created, a key is added to it, and the key may get a comment. -/
theorem exists_catalogOf_key {key : TableKey} (h : key.IsProper) {definition : TableDefinition} {draft : Draft}
    (hschema : schemaOf key.schema definition.relation = key.schema) (htable : definition.relation.name = key.table)
    (hdraft : (draftOf key.schema definition).result = .ok draft) :
    ∃ c, (catalogOf key.schema (.createTable definition ::
        .alterTable (.ofPath [key.table]) [.addConstraint key.added.clause] ::
          commentStatements .constraint [key.table, key.name] key.comment)).result = .ok c ∧
      c.constraint? key.schema key.table key.name = some key.constraint := by
  obtain ⟨created, hcreate, hfound⟩ := exists_effect_createTable hdraft start
  have hfiled := filed_draftOf hdraft
  rw [hschema, htable] at hfound hfiled
  have hclause := TableKey.constraintOf_clause h hfiled.table.schema hfiled.table.name
  obtain ⟨keyed, halter, hkeyed⟩ := exists_effect_addConstraint (.ofPath [key.table]) hfound hclause
  obtain ⟨-, -, hname, -, -⟩ := ({ key with comment := none } : TableKey).constraint_own
  rw [hname] at hkeyed
  have hplain : keyed.constraint? key.schema key.table key.name =
      some ({ key with comment := none } : TableKey).constraint := hkeyed
  have hrest : ∃ last, (commentStatements .constraint [key.table, key.name] key.comment).foldlM
      (effect key.schema) keyed = .ok last ∧ last.constraint? key.schema key.table key.name = some key.constraint := by
    cases hcomment : key.comment with
    | none =>
      rw [← hcomment] at hplain
      exact ⟨keyed, rfl, hplain⟩
    | some text =>
      obtain ⟨last, hlast, hkept⟩ := exists_effect_comment hplain (some text)
      rw [TableKey.constraint_withComment, ← hcomment] at hkept
      refine ⟨last, ?_, hkept⟩
      show effect key.schema keyed _ >>= _ = _
      rw [hlast]
      rfl
  obtain ⟨last, hlast, hkept⟩ := hrest
  refine ⟨inheritAll last, result_catalogOf_of_effects ?_ ?_, (constraint?_inheritAll ..).trans hkept⟩
  · cases key.comment <;> simp [commentStatements]
  · rw [inOrder_cons rfl (by cases key.comment <;> simp [commentStatements, Statement.isDependent]), List.foldlM_cons,
      hcreate]
    show effect key.schema created _ >>= _ = _
    rw [halter]
    exact hlast

end Effect

/-! ## Keys behind a table -/

/-- In front of a semicolon the text is read as a statement that creates this table, whatever it says of it. -/
def CreatesTable (create schema table : String) : Prop :=
  ∃ definition draft, IsSentence create.toList (.createTable definition) ∧
    Effect.schemaOf schema definition.relation = schema ∧ definition.relation.name = table ∧
    (Effect.draftOf schema definition).result = .ok draft

/-- A table without columns is created, whatever its name is. -/
theorem createsTable_bare (schema : String) {table : String} (h : IsProperName table) :
    CreatesTable ("CREATE TABLE " ++ quoteName table ++ " ()") schema table := by
  have hpath : IsPath [table] := ⟨List.cons_ne_nil _ _, List.forall_mem_singleton.mpr h.isKept, by simp⟩
  have hscans : ScansAs [';'] ("CREATE TABLE " ++ quoteName table ++ " ()").toList
      ([.word "create", .word "table"] ++ ([nameToken table] ++ [.symbol "(", .symbol ")"])) := by
    have hcreate : ScansAs [' '] "CREATE TABLE".toList [.word "create", .word "table"] :=
      .of_frontWords 2 (by decide) (by decide) fun _ => rfl
    have hname : ScansAs [' '] (quoteName table).toList [nameToken table] := scansAs_quoteName (by decide) h.isKept
    have hbody : ScansAs [';'] " ()".toList [.symbol "(", .symbol ")"] :=
      (ScansAs.symbol (by decide) (.symbol (by decide) (.nil _))).blank
    have hall := hcreate.append (hname.append hbody (by decide)).blank (by decide)
    have hfront : "CREATE TABLE ".toList = "CREATE TABLE".toList ++ [' '] := rfl
    rw [String.toList_append, String.toList_append, hfront, List.append_assoc, List.append_assoc]
    exact hall
  refine ⟨{ relation := .ofPath [table] }, { table := { schema := schema, name := table } },
    ⟨_, hscans, fun depth _ places found more => ?_⟩, rfl, rfl, rfl⟩
  have hends : Reader.EndsParts (.symbol "(" :: .symbol ")" :: .symbol ";" :: more) := ⟨by simp, by simp⟩
  obtain ⟨places', hrelation⟩ := Reader.relationName_tokens (r := Reader.rulesTo depth) hpath.nonempty hpath.names
    hpath.short hends fun i => places (i + 2)
  have hjoined : joined ([.word "create", .word "table"] ++ ([nameToken table] ++ [.symbol "(", .symbol ")"])) =
      .word "create" :: .word "table" :: (pathTokens [table] ++ [.symbol "(", .symbol ")"]) := by
    have hbody : joined [.symbol "(", .symbol ")"] = [.symbol "(", .symbol ")"] := rfl
    have hname : joined [nameToken table] = pathTokens [table] := rfl
    rw [List.cons_append, List.cons_append, List.nil_append, joined_cons (standsApart_word (by decide)),
      joined_cons (standsApart_word (by decide)), joined_append _ ((standsApart_symbol "(").head _), hname, hbody]
  have hread : Reader.createTable (Reader.rulesTo depth) false false (lexemesAt (fun i => places (i + 2))
      (pathTokens [table] ++ (.symbol "(" :: .symbol ")" :: .symbol ";" :: more))) =
        .ok (.createTable { relation := .ofPath [table] },
          lexemesAt (fun i => places' (i + 2)) (.symbol ";" :: more)) :=
    Reader.bind_ok (Reader.ifNotExists_path hpath.nonempty (by simp) _) (Reader.bind_ok hrelation rfl)
  rw [hjoined]
  exact ⟨_, Reader.nextStatement_createTable hread found⟩

/-- Seats in rooms. -/
def seatsDefinition : TableDefinition where
  relation := { name := "Seats" }
  elements := [.column { name := "room", type := .ofKeyword "int4" },
    .column { name := "No", type := { path := ["text"] }, rules := [.notNull] }]

def createSeats : String :=
  "CREATE TABLE \"Seats\" (\n    room integer,\n    \"No\" text NOT NULL\n)"

theorem createsTable_seats : CreatesTable createSeats "app" "Seats" := by
  have hsentence : IsSentence createSeats.toList (.createTable seatsDefinition) :=
    ⟨[.word "create", .word "table", .quotedName "Seats", .symbol "(", .word "room", .word "integer", .symbol ",",
        .quotedName "No", .word "text", .word "not", .word "null", .symbol ")"],
      .of_frontWords 12 (by decide) (by decide) fun _ => rfl, fun _ _ _ _ _ => ⟨_, rfl⟩⟩
  have hdraft : (Effect.draftOf "app" seatsDefinition).result.toOption.isSome := by decide +kernel
  obtain ⟨draft, hdraft⟩ := Option.isSome_iff_exists.mp hdraft
  exact ⟨seatsDefinition, draft, hsentence, rfl, rfl, eq_ok_of_toOption hdraft⟩

theorem Catalog.ofSql_ne_ok {sql : String} (h : (Sql.statements sql).toOption = none) (default : String)
    (c : Catalog) : (Catalog.ofSql sql default).result ≠ .ok c := by
  cases hstatements : Sql.statements sql with
  | ok all =>
    rw [hstatements] at h
    contradiction
  | error flaw =>
    rw [Catalog.ofSql_of_error hstatements]
    exact nofun

/-- Behind the statement that creates its table, what is written of a key adds that key to the table. -/
theorem key_read_again {create : String} {key : TableKey} (hcreate : CreatesTable create key.schema key.table)
    (h : key.IsProper) (hcomment : IsComment key.comment) :
    ∃ c, (Catalog.ofSql (create ++ ";\n\n" ++ key.constraint.ddl (some key.schema)) key.schema).result = .ok c ∧
      c.constraint? key.schema key.table key.name = some key.constraint := by
  obtain ⟨definition, draft, hsentence, hschema, htable, hdraft⟩ := hcreate
  have hkept : ∀ n ∈ [key.table, key.name], IsKept n :=
    List.forall_mem_cons.mpr ⟨h.table.isKept, List.forall_mem_singleton.mpr h.name.isKept⟩
  have hsubject : "CONSTRAINT " ++ quoteName key.name ++ " ON " ++ pathText [key.table] =
      kindText .constraint ++ " " ++ namingText (Reader.kindNaming .constraint) [key.table, key.name] := by
    have hnaming : namingText (Reader.kindNaming .constraint) [key.table, key.name] =
        quoteName key.name ++ " ON " ++ pathText [key.table] := rfl
    have hkind : "CONSTRAINT " = kindText .constraint ++ " " := rfl
    rw [hnaming, hkind]
    simp only [String.append_assoc]
  have hremark := Effect.isScript_commentAfter hcomment (by simp [Reader.kindNaming, IsNamedBy]) hkept hsubject
  have hscript := hsentence.script ((isSentence_key h.isKept).script hremark).behind_newline.behind_newline
  have htext : (create ++ ";\n\n" ++ key.constraint.ddl (some key.schema)).toList = create.toList ++ ';' :: '\n' ::
      '\n' :: (key.added.text.toList ++ ';' :: (Ddl.commentAfter ("CONSTRAINT " ++ quoteName key.name ++ " ON " ++
        pathText [key.table]) key.comment).toList) := by
    rw [TableKey.ddl_constraint h]
    simp only [String.toList_append, List.append_assoc]
    rfl
  rw [← htext] at hscript
  rw [Catalog.ofSql_of_ok hscript.statements]
  exact Effect.exists_catalogOf_key h hschema htable hdraft

/-- A key of two columns that refers to another schema, whose names have to be quoted and which is checked late. -/
theorem seats_key_read_again :
    let key : TableKey := {
      schema := "app"
      table := "Seats"
      name := "seat's room"
      columns := ["room", "No"]
      rule := .foreignKey {
        schema := "House"
        table := "rooms"
        columns := ["id", "No"]
        onUpdate := .cascade
        onDelete := .setNull
        deferral := .initially }
      comment := some "it's\na room" }
    CreatesTable createSeats key.schema key.table ∧ key.IsProper ∧ IsComment key.comment ∧
      ∃ c, (Catalog.ofSql (createSeats ++ ";\n\n" ++ key.constraint.ddl (some key.schema)) key.schema).result = .ok c ∧
        c.constraint? key.schema key.table key.name = some key.constraint := by
  intro key
  have hkey : key.IsProper := by
    refine ⟨by decide, by decide, by decide, by decide, ?_⟩
    rintro _ ⟨⟩
    decide
  have hcomment : IsComment key.comment := by
    rintro _ ⟨⟩
    exact ⟨by decide, by decide⟩
  exact ⟨createsTable_seats, hkey, hcomment, key_read_again createsTable_seats hkey hcomment⟩

/-- A script ends at its first zero character, so nothing is read of a key whose comment has one. -/
theorem zero_comment_lost :
    let key : TableKey := {
      schema := "public"
      table := "t"
      name := "k"
      columns := ["a"]
      rule := .primaryKey
      comment := some "a\x00b" }
    CreatesTable "CREATE TABLE t ()" key.schema key.table ∧ key.IsProper ∧ key.comment ≠ some "" ∧
      ¬ ∃ c, (Catalog.ofSql ("CREATE TABLE t ()" ++ ";\n\n" ++ key.constraint.ddl (some key.schema))
          key.schema).result = .ok c ∧
        c.constraint? key.schema key.table key.name = some key.constraint := by
  intro key
  have hname : IsProperName "t" := by decide
  have hkey : key.IsProper := ⟨by decide, by decide, by decide, by decide, nofun⟩
  refine ⟨createsTable_bare "public" hname, hkey, by decide, ?_⟩
  rintro ⟨c, hresult, -⟩
  exact Catalog.ofSql_ne_ok (by decide +kernel) "public" c hresult

end SchemaScript
