import SchemaScript.Ddl.Index
import SchemaScript.Ddl.Object
import SchemaScript.Ddl.Routine
import SchemaScript.Ddl.Table
import SchemaScript.Proofs.Script.TableWalk

/-!
# What every piece of a script is like

The text of every object is empty or ends with a semicolon (`IsScript`), whatever the object's fields hold. So a line
end after it is the only one. Each piece is there because of an object that the newer catalog keeps under the piece's
tag, and its statement ends with a semicolon (`yields_pieces`).
-/

/-! ## How statements end -/

namespace SchemaScript.Ddl

/-- The text ends with a semicolon. -/
def Closed (text : String) : Prop := ∃ lead, text = lead ++ ";"

/-- There is nothing to write, or what is written ends with a semicolon. -/
def IsScript (text : String) : Prop := text = "" ∨ Closed text

theorem Closed.isScript {text : String} (h : Closed text) : IsScript text := .inr h

theorem isScript_empty : IsScript "" := .inl rfl

theorem closed_append_semicolon (lead : String) : Closed (lead ++ ";") := ⟨lead, rfl⟩

theorem Closed.append {text : String} (h : Closed text) (lead : String) : Closed (lead ++ text) := by
  obtain ⟨rest, rfl⟩ := h
  exact ⟨lead ++ rest, by rw [String.append_assoc]⟩

theorem Closed.append_isScript {text tail : String} (h : Closed text) (ht : IsScript tail) :
    Closed (text ++ tail) := by
  rcases ht with rfl | ht
  · rwa [String.append_empty]
  · exact ht.append text

/-- Parts that are closed make a closed text, whatever separates them. -/
theorem closed_intercalate (separator : String) {part : String} {parts : List String}
    (h : ∀ t ∈ part :: parts, Closed t) : Closed (separator.intercalate (part :: parts)) := by
  induction parts generalizing part with
  | nil => simpa using h
  | cons next parts ih =>
    rw [String.intercalate_cons_cons]
    exact (ih fun t ht => h t (List.mem_cons_of_mem part ht)).append _

/-- The last part alone decides. -/
theorem Closed.intercalate_append {last : String} (h : Closed last) (separator : String)
    (parts : List String) : Closed (separator.intercalate (parts ++ [last])) := by
  rcases parts with _ | ⟨part, parts⟩
  · simpa using h
  · rw [String.intercalate_append_of_ne_nil (by simp) (by simp), String.intercalate_singleton]
    exact h.append _

theorem closed_commentStatement (subject comment : String) :
    Closed (commentStatement subject comment) :=
  closed_append_semicolon _

theorem isScript_commentAfter (subject : String) (comment : Field String) :
    IsScript (commentAfter subject comment) := by
  unfold commentAfter
  split
  · exact ((closed_commentStatement _ _).append _).isScript
  · exact isScript_empty

/-- A statement with its comment. -/
theorem Closed.withComment {text : String} (h : Closed text) (subject : String)
    (comment : Field String) : IsScript (text ++ commentAfter subject comment) :=
  (h.append_isScript (isScript_commentAfter subject comment)).isScript

/-- A semicolon is added where none stands. -/
theorem closed_append_unless (text : String) :
    Closed (text ++ (if Text.endsWith text ";" then "" else ";")) := by
  by_cases h : Text.endsWith text ";"
  · obtain ⟨lead, hlead⟩ := List.isSuffixOf_iff_suffix.mp h
    refine ⟨String.ofList lead, ?_⟩
    rw [if_pos h, String.append_empty]
    apply String.toList_injective
    simpa using hlead.symm
  · rw [if_neg h]
    exact closed_append_semicolon text

theorem isScript_attachPartition (parent child bound : Option String) :
    IsScript (attachPartition parent child bound) := by
  unfold attachPartition
  split
  · exact (closed_append_semicolon _).isScript
  · exact isScript_empty

end SchemaScript.Ddl

namespace SchemaScript

open Ddl

variable (target : Option String)

/-! ### Objects of a schema -/

theorem Schema.isScript_ddl (s : Schema) : IsScript s.ddl := by
  unfold Schema.ddl
  split
  · exact isScript_empty
  · split
    · exact isScript_empty
    · exact (closed_append_semicolon _).isScript

theorem Extension.isScript_ddl (e : Extension) : IsScript e.ddl := by
  unfold Extension.ddl
  split
  · exact isScript_empty
  · exact (closed_append_semicolon _).withComment _ _

theorem UserType.closed_enumBody (labels : List String) : Closed (enumBody labels) := by
  unfold enumBody
  split
  · exact ⟨" AS ENUM ()", rfl⟩
  · exact Closed.append ⟨"\n)", rfl⟩ _

theorem UserType.isScript_ddl (t : UserType) : IsScript (t.ddl target) := by
  unfold UserType.ddl
  split
  · exact isScript_empty
  · dsimp only
    split
    · exact ((closed_enumBody _).append _).withComment _ _
    · exact (Closed.append (Closed.append ⟨"\n)", rfl⟩ _) _).withComment _ _
    · exact ((closed_append_semicolon _).append _).withComment _ _

theorem Sequence.isScript_ddl (s : Sequence) : IsScript (s.ddl target) := by
  unfold Sequence.ddl
  split
  · exact isScript_empty
  · exact (closed_append_semicolon _).withComment _ _

theorem View.isScript_ddl (v : View) : IsScript (v.ddl target) := by
  unfold View.ddl
  split
  · exact isScript_empty
  · refine Closed.withComment ?_ _ _
    rw [String.append_assoc]
    exact (closed_append_unless v.query).append _

theorem StoredFunction.isScript_ddl (f : StoredFunction) : IsScript (f.ddl target) := by
  unfold StoredFunction.ddl
  split
  · exact isScript_empty
  · exact ((closed_append_semicolon _).intercalate_append _ _).withComment _ _

theorem Procedure.isScript_ddl (p : Procedure) : IsScript (p.ddl target) := by
  unfold Procedure.ddl
  split
  · exact isScript_empty
  · exact (closed_append_semicolon _).withComment _ _

theorem Aggregate.isScript_ddl (a : Aggregate) : IsScript (a.ddl target) := by
  unfold Aggregate.ddl
  split
  · exact isScript_empty
  · exact (Closed.append ⟨"\n)", rfl⟩ _).withComment _ _

/-! ### Tables and what they own -/

theorem Table.closed_of_mem_comments {t : Table} {name text : String}
    (h : text ∈ t.comments name) : Closed text := by
  rcases List.mem_append.mp h with h | h
  · split at h
    · obtain rfl := List.mem_singleton.mp h
      exact closed_commentStatement _ _
    · simp at h
  · obtain ⟨column, -, h⟩ := List.mem_filterMap.mp h
    obtain ⟨comment, -, rfl⟩ := Option.map_eq_some_iff.mp h
    exact closed_commentStatement _ _

theorem Table.isScript_ddl (t : Table) : IsScript (t.ddl target) := by
  unfold Table.ddl
  split
  · exact isScript_empty
  · refine (closed_intercalate _ (List.forall_mem_cons.mpr ⟨?_, ?_⟩)).isScript
    · exact closed_append_semicolon _
    · exact fun text h => closed_of_mem_comments h

theorem Table.isScript_rowSecurityDdl (t : Table) : IsScript (t.rowSecurityDdl target) := by
  unfold Table.rowSecurityDdl
  split
  · exact (Closed.append ⟨" ENABLE ROW LEVEL SECURITY", rfl⟩ _).isScript
  · exact isScript_empty

theorem IndexAttachment.isScript_ddl (a : IndexAttachment) : IsScript (a.ddl target) :=
  (closed_append_semicolon _).isScript

theorem Index.isScript_ddl (i : Index) : IsScript (i.ddl target) := by
  unfold Index.ddl
  split
  · exact isScript_empty
  · dsimp only
    split
    · exact isScript_empty
    · exact (closed_append_unless _).withComment _ _

theorem Constraint.isScript_ddl (c : Constraint) : IsScript (c.ddl target) := by
  unfold Constraint.ddl
  dsimp only
  split
  · exact isScript_empty
  · split
    · exact (closed_append_semicolon _).withComment _ _
    · exact isScript_empty

theorem Trigger.isScript_ddl (t : Trigger) : IsScript (t.ddl target) := by
  unfold Trigger.ddl
  split
  · exact isScript_empty
  · exact (closed_append_semicolon _).withComment _ _

theorem Policy.isScript_ddl (p : Policy) : IsScript (p.ddl target) := by
  unfold Policy.ddl
  split
  · exact isScript_empty
  · exact (closed_append_semicolon _).isScript

end SchemaScript

/-! ## Objects behind pieces -/

namespace SchemaScript

/-- The schema keeps an object of the kind under the name. -/
def Schema.holds (s : Schema) : ObjectKind → String → Bool
  | .type => s.types.contains
  | .sequence => s.sequences.contains
  | .table => s.tables.contains
  | .view => s.views.contains
  | .function => s.functions.contains
  | .aggregate => s.aggregates.contains
  | .procedure => s.procedures.contains

/-- The catalog keeps the object of the tag. -/
def Catalog.holds (catalog : Catalog) : Tag → Bool
  | .extension key => catalog.extensions.contains key
  | .schema key => catalog.schemas.contains key
  | .object schema kind key => (catalog.schemas.get? schema).any fun s => s.holds kind key

/-- The kinds of statements that objects of a kind bring along. -/
def ObjectKind.pieceKinds : ObjectKind → List PieceKind
  | .type => [.type, .domain]
  | .sequence => [.sequence]
  | .table => [.table, .tableAttach, .index, .indexAttach, .constraint, .trigger, .policy]
  | .view => [.view, .materializedView]
  | .function => [.function]
  | .aggregate => [.aggregate]
  | .procedure => [.procedure]

def Tag.pieceKinds : Tag → List PieceKind
  | .extension _ => [.extension]
  | .schema _ => [.schema]
  | .object _ kind _ => kind.pieceKinds

/-- The kind of the object, if a schema keeps it. -/
def Tag.objectKind? : Tag → Option ObjectKind
  | .extension _ | .schema _ => none
  | .object _ kind _ => some kind

/-- A statement of a kind that the piece's object brings along, ended by a semicolon. -/
structure Piece.WellFormed (x : Piece) : Prop where
  kind : x.kind ∈ x.tag.pieceKinds
  closed : Ddl.Closed x.text

/-- The statement creates a table; one that switches on row security does not. -/
def Piece.createsTable (x : Piece) : Bool :=
  x.kind == .table && "CREATE TABLE ".toList.isPrefixOf x.text.toList

/-- A well-formed piece that is there because of an object of the catalog. -/
structure Catalog.Grounds (catalog : Catalog) (x : Piece) : Prop where
  holds : catalog.holds x.tag
  wellFormed : x.WellFormed

namespace Diff

open Ddl (Closed IsScript)

variable {p : Pair} {new : Catalog} {ps : Partitions}

/-! ## Parts of a table -/

@[simp] theorem Pair.pieceKinds_tag (p : Pair) (kind : ObjectKind) (key : String) :
    (p.tag kind key).pieceKinds = kind.pieceKinds := rfl

/-- A well-formed piece with this tag. -/
def Tagged (tag : Tag) (x : Piece) : Prop := x.tag = tag ∧ x.WellFormed

theorem yields_tagged {tag : Tag} {kind : PieceKind} {name schema : String} {owner : Option String}
    {checked : Except Fault Unit} {text : String} (hkind : kind ∈ tag.pieceKinds)
    (h : IsScript text) : Yields (Tagged tag) (emit tag kind name schema owner checked text) :=
  yields_emit fun hne => ⟨rfl, hkind, h.resolve_left hne⟩

/-- A piece that is written for what a table owns: it neither creates nor attaches a table. -/
structure IsPart (tag : Tag) (x : Piece) : Prop where
  tagged : Tagged tag x
  notCreation : x.createsTable = false
  notAttachment : x.kind ≠ .tableAttach

theorem yields_part {name : String} {kind : PieceKind} {key schema : String} {owner : Option String}
    {checked : Except Fault Unit} {text : String}
    (hkind : kind ∈ [.index, .indexAttach, .constraint, .trigger, .policy]) (h : IsScript text) :
    Yields (IsPart (p.tag .table name))
      (emit (p.tag .table name) kind key schema owner checked text) := by
  have hfacts : kind ∈ ObjectKind.table.pieceKinds ∧ kind ≠ .table ∧ kind ≠ .tableAttach := by
    revert hkind
    cases kind <;> decide
  obtain ⟨hpart, htable, hattach⟩ := hfacts
  exact yields_emit fun hne =>
    ⟨⟨rfl, hpart, h.resolve_left hne⟩, by simp [Piece.createsTable, htable], hattach⟩

theorem yields_index (name key : String) (i : Index) :
    Yields (IsPart (p.tag .table name)) (index p (p.tag .table name) new key i) := by
  refine (yields_part (by decide) (i.isScript_ddl p.target)).bind fun own hown => ?_
  refine (yields_collect fun a _ => yields_part (by decide) (a.isScript_ddl p.target)).bind
    fun attached hattached => ?_
  refine yields_pure fun x hx => ?_
  exact (List.mem_append.mp hx).elim (hown x) (hattached x)

theorem yields_rowSecurity (name schema : String) (t : Table) :
    Yields (IsPart (p.tag .table name))
      (emit (p.tag .table name) .table t.name.spelled schema none t.checkRowSecurity
        (t.rowSecurityDdl p.target)) := by
  refine yields_emit fun hne =>
    ⟨⟨rfl, by simp [ObjectKind.pieceKinds], (t.isScript_rowSecurityDdl p.target).resolve_left hne⟩,
      ?_, by simp⟩
  unfold Table.rowSecurityDdl at hne ⊢
  split
  · simp [Piece.createsTable, List.isPrefixOf]
  · next hoff => simp [hoff] at hne

theorem yields_tableParts (name : String) (t : Table) :
    Yields (IsPart (p.tag .table name)) (tableParts p (p.tag .table name) new t) := by
  refine (yields_collect fun entry _ => yields_index name entry.1 entry.2).bind
    fun indexes hindexes => ?_
  refine (yields_collect fun entry _ =>
    yields_part (by decide) (entry.2.isScript_ddl p.target)).bind fun constraints hconstraints => ?_
  refine (yields_collect fun entry _ =>
    yields_part (by decide) (entry.2.isScript_ddl p.target)).bind fun triggers htriggers => ?_
  refine (yields_rowSecurity name _ t).bind fun security hsecurity => ?_
  refine (yields_collect fun entry _ =>
    yields_part (by decide) (entry.2.isScript_ddl p.target)).bind fun policies hpolicies => ?_
  refine yields_pure fun x hx => ?_
  simp only [List.mem_append] at hx
  rcases hx with (((hx | hx) | hx) | hx) | hx
  · exact hindexes x hx
  · exact hconstraints x hx
  · exact htriggers x hx
  · exact hsecurity x hx
  · exact hpolicies x hx

theorem yields_attachment (name : String) (parent : Option String) :
    Yields (Tagged (p.tag .table name)) (attachment p ps name parent) := by
  rcases parent with _ | parent
  · exact yields_pure (by simp)
  · exact yields_tagged (by simp [ObjectKind.pieceKinds]) (Ddl.isScript_attachPartition _ _ _)

theorem yields_tablePieces (name : String) (t : Table) (parent : Option String) :
    Yields (Tagged (p.tag .table name)) (tablePieces p new ps name t parent) := by
  unfold tablePieces
  dsimp only
  split
  · exact yields_pure (by simp)
  · have htable := t.isScript_ddl p.target
    refine (yields_tagged (by simp [ObjectKind.pieceKinds]) htable).bind fun own hown => ?_
    split
    · exact yields_pure (by simp)
    · refine (yields_attachment name parent).bind fun attach hattach => ?_
      refine ((yields_tableParts name t).mono fun x hx => hx.tagged).bind fun parts hparts => ?_
      refine yields_pure fun x hx => ?_
      simp only [List.mem_append] at hx
      rcases hx with (hx | hx) | hx
      · exact hown x hx
      · exact hattach x hx
      · exact hparts x hx

/-! ## The passes of one schema -/

/-- A well-formed piece that is there because of an object of the schema. -/
def Grounded (p : Pair) (kind : ObjectKind) (x : Piece) : Prop :=
  ∃ key, p.schema.holds kind key ∧ Tagged (p.tag kind key) x

theorem yields_grounded {kind : ObjectKind} {key : String} {pieces : Logged (List Piece)}
    (hkey : p.schema.holds kind key) (h : Yields (Tagged (p.tag kind key)) pieces) :
    Yields (Grounded p kind) pieces :=
  fun ps hps x hx => ⟨key, hkey, h ps hps x hx⟩

/-- What is added is kept by the newer state. -/
theorem Pair.contains_of_mem_added {α : Type} {entries : Schema → Entries α}
    {entry : String × α} (h : entry ∈ p.added entries) : (entries p.schema).contains entry.1 :=
  Entries.contains_of_mem_sorted (List.mem_of_mem_filter h)

theorem mem_of_sortTypes {types sorted : List (String × UserType)}
    (h : (sortTypes types).result = .ok sorted) {entry : String × UserType} (he : entry ∈ sorted) :
    entry ∈ types := by
  unfold sortTypes at h
  dsimp only at h
  split at h
  · obtain rfl : _ = sorted := by simpa using h
    rcases List.mem_append.mp he with he | he
    · exact List.mem_of_mem_filter (Order.mem_sort.mp he)
    · exact List.mem_of_mem_filter (Order.mem_sort.mp he)
  · simp at h

theorem yields_types (p : Pair) : Yields (Grounded p .type) (types p) := by
  refine yields_bind fun sorted hsorted => yields_collect fun entry he => ?_
  refine yields_grounded ?_ (yields_tagged ?_ (entry.2.isScript_ddl p.target))
  · exact Pair.contains_of_mem_added (mem_of_sortTypes hsorted he)
  · split <;> simp [ObjectKind.pieceKinds]

theorem yields_sequence (p : Pair) (key : String) (s : Sequence) :
    Yields (Tagged (p.tag .sequence key)) (sequence p key s) := by
  unfold sequence
  split
  · exact yields_bind fun _ _ => yields_pure (by simp)
  · exact yields_tagged (by simp [ObjectKind.pieceKinds]) (s.isScript_ddl p.target)

theorem yields_sequences (p : Pair) : Yields (Grounded p .sequence) (sequences p) :=
  yields_collect fun entry he => yields_grounded (Pair.contains_of_mem_added he)
    (yields_sequence p entry.1 entry.2)

theorem yields_tables (new : Catalog) (p : Pair) : Yields (Grounded p .table) (tables new p) := by
  refine yields_bind fun walk hwalk => yields_bind fun _ _ => yields_pure ?_
  refine walkTables_induct (I := fun w => ∀ x ∈ w.pieces, Grounded p .table x) ?_ hwalk (by simp)
  intro w parent name t own ht _ _ hown hw x hx
  rcases List.mem_append.mp hx with hx | hx
  · exact hw x hx
  · exact ⟨name, Entries.contains_of_get? ht, yields_tablePieces name t parent own hown x hx⟩

theorem yields_view (p : Pair) (name : String) :
    Yields (Tagged (p.tag .view name)) (view p name) := by
  unfold view
  split
  · exact yields_pure (by simp)
  · refine yields_tagged ?_ (View.isScript_ddl p.target _)
    split <;> simp [ObjectKind.pieceKinds]

theorem yields_views (p : Pair) : Yields (Grounded p .view) (views p) := by
  refine yields_bind fun names hnames => yields_collect fun name hname => ?_
  exact yields_grounded ((Schema.mem_sortViews hnames).mp (List.mem_of_mem_filter hname))
    (yields_view p name)

theorem yields_functions (p : Pair) : Yields (Grounded p .function) (functions p) :=
  yields_collect fun entry he => yields_grounded (Pair.contains_of_mem_added he)
    (yields_tagged (by simp [ObjectKind.pieceKinds]) (entry.2.isScript_ddl p.target))

theorem yields_aggregates (p : Pair) : Yields (Grounded p .aggregate) (aggregates p) :=
  yields_collect fun entry he => yields_grounded (Pair.contains_of_mem_added he)
    (yields_tagged (by simp [ObjectKind.pieceKinds]) (entry.2.isScript_ddl p.target))

theorem yields_procedures (p : Pair) : Yields (Grounded p .procedure) (procedures p) :=
  yields_collect fun entry he => yields_grounded (Pair.contains_of_mem_added he)
    (yields_tagged (by simp [ObjectKind.pieceKinds]) (entry.2.isScript_ddl p.target))

/-! ## The whole script -/

variable {old : Catalog} {target : Option String}

theorem Pair.get?_of_mem_pairs (h : p ∈ pairs old new target) :
    new.schemas.get? p.key = some p.schema ∧ p.old = old.schemas.get? p.key ∧ p.target = target := by
  obtain ⟨entry, hentry, rfl⟩ := List.mem_map.mp h
  exact ⟨Entries.get?_of_mem_sorted (List.mem_of_mem_filter hentry), rfl, rfl⟩

/-- A well-formed piece of one pass, there because of an object of the catalog. -/
def GroundsAs (new : Catalog) (kind : Option ObjectKind) (x : Piece) : Prop :=
  new.Grounds x ∧ x.tag.objectKind? = kind

theorem grounds_of_grounded {kind : ObjectKind} {x : Piece} (hp : p ∈ pairs old new target)
    (h : Grounded p kind x) : GroundsAs new kind x := by
  obtain ⟨key, hkey, htag, hwellFormed⟩ := h
  refine ⟨⟨?_, hwellFormed⟩, by rw [htag]; rfl⟩
  rw [htag, Pair.tag, Catalog.holds, (Pair.get?_of_mem_pairs hp).1, Option.any_some]
  exact hkey

theorem yields_extensions : Yields (GroundsAs new none) (extensions old new) := by
  refine yields_bind fun _ _ => yields_bind fun _ _ => yields_pure fun x hx => ?_
  obtain ⟨⟨key, e⟩, hentry, hx⟩ := List.mem_filterMap.mp hx
  by_cases hne : e.ddl = ""
  · simp [hne] at hx
  · obtain rfl : _ = x := by simpa [hne] using hx
    exact ⟨⟨Entries.contains_of_mem_sorted (List.mem_of_mem_filter hentry),
      by simp [Tag.pieceKinds], e.isScript_ddl.resolve_left hne⟩, rfl⟩

theorem yields_schemas : Yields (GroundsAs new none) (schemas old new target) := by
  refine yields_collect fun entry hentry => yields_emit fun hne => ⟨⟨?_, ?_, ?_⟩, rfl⟩
  · exact Entries.contains_of_mem_sorted (List.mem_of_mem_filter hentry)
  · simp [Tag.pieceKinds]
  · exact entry.2.isScript_ddl.resolve_left hne

theorem yields_walked {pass : Pair → Logged (List Piece)} {kind : ObjectKind}
    (h : ∀ p, Yields (Grounded p kind) (pass p)) :
    Yields (GroundsAs new kind) (collect (pairs old new target) pass) :=
  yields_collect fun p hp ps hps x hx => grounds_of_grounded hp (h p ps hps x hx)

/-- Every piece of a script is there because of an object that the newer catalog keeps. -/
theorem yields_pieces (old new : Catalog) (target : Option String) :
    Yields new.Grounds (pieces old new target) := by
  refine (yields_extensions.mono fun _ h => h.1).bind fun extensions h₁ => ?_
  refine (yields_schemas.mono fun _ h => h.1).bind fun schemas h₂ => ?_
  refine ((yields_walked yields_types).mono fun _ h => h.1).bind fun types h₃ => ?_
  refine ((yields_walked yields_sequences).mono fun _ h => h.1).bind fun sequences h₄ => ?_
  refine ((yields_walked (yields_tables new)).mono fun _ h => h.1).bind fun tables h₅ => ?_
  refine ((yields_walked yields_views).mono fun _ h => h.1).bind fun views h₆ => ?_
  refine ((yields_walked yields_functions).mono fun _ h => h.1).bind fun functions h₇ => ?_
  refine ((yields_walked yields_aggregates).mono fun _ h => h.1).bind fun aggregates h₈ => ?_
  refine ((yields_walked yields_procedures).mono fun _ h => h.1).bind fun procedures h₉ => ?_
  refine yields_pure fun x hx => ?_
  simp only [List.mem_append] at hx
  rcases hx with (((((((hx | hx) | hx) | hx) | hx) | hx) | hx) | hx) | hx
  · exact h₁ x hx
  · exact h₂ x hx
  · exact h₃ x hx
  · exact h₄ x hx
  · exact h₅ x hx
  · exact h₆ x hx
  · exact h₇ x hx
  · exact h₈ x hx
  · exact h₉ x hx

end Diff
end SchemaScript
