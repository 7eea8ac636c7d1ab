import SchemaScript.Proofs.Ddl.Keys
import SchemaScript.Proofs.Effect.Supply
import SchemaScript.Proofs.Script.Coverage

/-!
# Columns that draw from sequences

A column shows as serial because of its type and its default, and a sequence is left out because it has an
owner. Both go back to what the script declares (`serial_and_owned`), each by itself: they come together where
a serial column keeps the default of its type, and may come apart elsewhere.
-/

namespace SchemaScript

open Sql Effect

/-! ## Keywords -/

/-- The keywords that stand for a column with a sequence of its own. -/
def serialKeywords : List String :=
  ["SERIAL", "SMALLSERIAL", "BIGSERIAL"]

namespace Column

variable {column : Column} {target : Option String}

theorem typeText?_of_isSerial (h : column.isSerial) :
    ∃ keyword ∈ serialKeywords, column.typeText? target = some keyword := by
  have hkeyword : (serialKeyword? (column.dataType.givenOr "")).isSome := by
    unfold isSerial at h
    split at h
    · exact (Bool.and_eq_true_iff.mp h).2
    · contradiction
  refine ⟨serialKeyword (column.dataType.givenOr ""), ?_, by rw [typeText?, if_pos h]⟩
  unfold serialKeyword
  unfold serialKeyword? at hkeyword ⊢
  dsimp only at hkeyword ⊢
  split
  · decide
  split
  · decide
  split
  · decide
  · decide

theorem head?_of_mem_serialKeywords {keyword : String} (h : keyword ∈ serialKeywords) :
    keyword.toList.head? = some 'S' ∨ keyword.toList.head? = some 'B' := by
  simp only [serialKeywords, List.mem_cons, List.not_mem_nil, or_false] at h
  rcases h with rfl | rfl | rfl <;> decide

/-- Otherwise a keyword shows only where it is the type's own name. -/
theorem isSerial_or_of_typeText? {keyword : String} (hkeyword : keyword ∈ serialKeywords)
    (h : column.typeText? target = some keyword) :
    column.isSerial ∨ dropSchema (column.declaredType.map canonicalType) target = some keyword := by
  have hhead := head?_of_mem_serialKeywords hkeyword
  by_cases hserial : column.isSerial
  · exact .inl hserial
  unfold typeText? at h
  rw [if_neg hserial] at h
  dsimp only at h
  split at h
  · obtain rfl := Option.some.inj h
    simp [String.toList_append] at hhead
  · obtain rfl := Option.some.inj h
    simp [String.toList_append] at hhead
  · split at h
    · obtain rfl := Option.some.inj h
      simp [String.toList_append] at hhead
    · obtain rfl := Option.some.inj h
      simp [String.toList_append] at hhead
  · exact .inr h

end Column

/-- The default of a column is written unless the column is serial or an identity. -/
theorem Table.default_mem_columnOptions_iff {t : Table} {column : Column} {target : Option String} {text : String} :
    "DEFAULT " ++ text ∈ t.columnOptions target column ↔
      column.identity.enabled.isGiven = false ∧ column.isSerial = false ∧
        ∃ d, column.default.text? = some d ∧ text = Ddl.defaultText d target := by
  have hne (word : String) (hword : word.toList.head? ≠ some 'D') : "DEFAULT " ++ text ≠ word := by
    rintro rfl
    simp [String.toList_append] at hword
  have hkey : "DEFAULT " ++ text ≠ "PRIMARY KEY" := hne _ (by decide)
  have hunique : "DEFAULT " ++ text ≠ "UNIQUE" := hne _ (by decide)
  have hnull : "DEFAULT " ++ text ≠ "NOT NULL" := hne _ (by decide)
  have hgenerated (how : String) : "DEFAULT " ++ text ≠ "GENERATED " ++ how ++ " AS IDENTITY" :=
    hne _ (by simp [String.toList_append])
  have hgeneration : "DEFAULT " ++ text ∈ t.columnOptions target column ↔
      "DEFAULT " ++ text ∈ column.generationOptions target := by
    rw [columnOptions_eq]
    simp only [List.mem_append]
    constructor
    · rintro (((h | h) | h) | h)
      · split at h <;> simp_all
      · exact h
      · split at h <;> simp_all
      · split at h <;> simp_all
    · exact fun h => .inl (.inl (.inr h))
  rw [hgeneration, Column.generationOptions]
  by_cases hidentity : column.identity.enabled.isGiven
  · simp [hidentity, hgenerated]
  cases column.default.text? <;> by_cases hserial : column.isSerial <;> simp [hidentity, hserial]

theorem Sequence.ddl_eq_empty_iff (q : Sequence) (target : Option String) :
    q.ddl target = "" ↔ q.name.isGiven = false := by
  unfold Sequence.ddl
  by_cases hname : q.name.isGiven
  · simp [hname, String.append_eq_empty_iff]
  · simp [hname]

namespace Diff

variable {p : Pair} {old new : Catalog} {target : Option String} {kind : ObjectKind} {s : Subject} {x : Piece}

/-- Of what is written for a script, only the statement of the sequence itself stands under its tag. -/
theorem mem_tags_sequence_iff {ps : List Piece} (h : (pieces old new target).result = .ok ps)
    (hp : p ∈ pairs old new (Text.given target)) {key : String} {q : Sequence}
    (hkept : p.schema.sequences.get? key = some q) :
    p.tag .sequence key ∈ ps.map (·.tag) ↔ p.isNew .sequence key ∧ q.isOwned = false ∧ q.name.isGiven := by
  have hpiece {x : Piece} : (∃ s, Covers old new target s x) ∧ x.tag = p.tag .sequence key ↔
      p.isNew .sequence key ∧ q.isOwned = false ∧
        x = p.piece (p.tag .sequence key) .sequence key (.sequence q) := by
    constructor
    · rintro ⟨⟨s, hcovers⟩, htag⟩
      cases hcovers with
      | extension | schema => nomatch htag
      | @inSchema p' kind _ _ walked held =>
        obtain ⟨key', hkey⟩ := held.exists_tag
        obtain ⟨hpair, rfl, rfl⟩ := Tag.object.inj (hkey.symm.trans htag)
        obtain rfl := Pair.eq_of_key hp walked hpair
        cases held with
        | @sequence key'' q' kept added free =>
          obtain rfl : key'' = key' := (Tag.object.inj htag).2.2
          obtain rfl := Option.some.inj (kept.symm.trans hkept)
          exact ⟨added, free, rfl⟩
    · rintro ⟨hnew, hfree, rfl⟩
      exact ⟨⟨_, .inSchema hp (.sequence hkept hnew hfree)⟩, rfl⟩
  rw [List.mem_map]
  constructor
  · rintro ⟨x, hx, htag⟩
    have hkind : x.isAttachment = false := by
      have hkind := (yields_pieces old new target ps h x hx).wellFormed.kind
      rw [htag, Pair.pieceKinds_tag, ObjectKind.pieceKinds, List.mem_singleton] at hkind
      rw [Piece.isAttachment, hkind]
      rfl
    obtain ⟨htext, hcovers⟩ := (mem_pieces_iff h hkind).mp hx
    obtain ⟨hnew, hfree, rfl⟩ := hpiece.mp ⟨hcovers, htag⟩
    refine ⟨hnew, hfree, ?_⟩
    by_contra hname
    exact htext ((q.ddl_eq_empty_iff p.target).mpr (Bool.eq_false_of_not_eq_true hname))
  · rintro ⟨hnew, hfree, hname⟩
    obtain ⟨hcovers, htag⟩ := hpiece.mpr ⟨hnew, hfree, rfl⟩
    refine ⟨_, (mem_pieces_iff h rfl).mpr ⟨fun hempty => ?_, hcovers⟩, htag⟩
    have hnone := (q.ddl_eq_empty_iff p.target).mp hempty
    rw [hname] at hnone
    contradiction

end Diff

section

variable {default : String} {all : List Statement} {attached : List PartitionAttachment} {c : Catalog}
  {p : Diff.Pair} {target : Option String} {t : Table} {name : String}

/-- How a declared column shows in its table's statement. -/
structure ShowsAs (t : Table) (target : Option String) (definition : ColumnDefinition) (column : Column) : Prop where
  name : column.name = (definition.name : Field String)
  line : ∃ type, column.typeText? target = some type ∧
    " ".intercalate ([quoteName definition.name, type] ++ t.columnOptions target column) ∈ t.lines target
  serial : definition.drawsNumbers → (∃ keyword ∈ serialKeywords, column.typeText? target = some keyword) ∧
    ∀ text, "DEFAULT " ++ text ∉ t.columnOptions target column
  /-- A keyword is then the name of the type itself, and the default is written as it is stored. -/
  plain : definition.drawsNumbers = false →
    (∀ keyword ∈ serialKeywords, column.typeText? target = some keyword →
      dropSchema (column.declaredType.map canonicalType) target = some keyword) ∧
    (column.identity.enabled.isGiven = false → ∀ d, column.default.text? = some d →
      "DEFAULT " ++ Ddl.defaultText d target ∈ t.columnOptions target column)

/-- What decides whether columns show as serial and whether sequences are left out. -/
structure Supplied (default : String) (all : List Statement) (c : Catalog) (p : Diff.Pair) (ps : List Piece) :
    Prop where
  columns : ∀ name t, p.schema.tables.get? name = some t →
    p.piece (p.tag .table name) .table name (.table t) ∈ ps →
    ∃ columns, ColumnsOf default all c.partitions p.key name columns ∧
      List.Forall₂ (ShowsAs t p.target) columns t.columns
  sequences : ∀ key q, p.schema.sequences.get? key = some q →
    ∃ owner, OwnerOf default all p.key key owner ∧ IsOwnedBy q owner ∧
      (p.tag .sequence key ∈ ps.map (·.tag) ↔
        key ≠ "" ∧ ∀ o ∈ owner, o.1 = "" ∨ o.2 = "")
  alike : ∀ definition column, Undisturbed default all definition column →
    schemaOf default definition.relation = p.key →
    ∀ t, p.schema.tables.get? definition.relation.name = some t →
    ∀ shown ∈ t.columns, shown.name = (column.name : Field String) →
      (shown.isSerial ↔ ∃ key q, p.schema.sequences.get? key = some q ∧
        IsOwnedBy q (some (definition.relation.name, column.name)))

theorem showsAs_of_declares {definition : ColumnDefinition} {column : Column} (hcomplete : t.isComplete)
    (hcolumn : column ∈ t.columns) (h : Declares definition column.supply) : ShowsAs t target definition column := by
  have hname : column.name = (definition.name : Field String) := h.name
  have hserial : column.isSerial = definition.drawsNumbers := h.serial
  obtain ⟨hnamed, htyped⟩ : column.name.isGiven ∧ column.dataType.isGiven := by
    have hall := List.all_eq_true.mp (Bool.and_eq_true_iff.mp hcomplete).2 column hcolumn
    exact Bool.and_eq_true_iff.mp hall
  obtain ⟨type, htype, htext⟩ := t.exists_columnText? target hnamed htyped
  refine ⟨hname, ⟨type, htype, ?_⟩, fun hdraws => ?_, fun hdraws => ?_⟩
  · rw [hname, Field.spelled_text] at htext
    exact List.mem_append_left _ (List.mem_filterMap.mpr ⟨column, mem_byPosition.mpr hcolumn, htext⟩)
  · rw [← hserial] at hdraws
    refine ⟨column.typeText?_of_isSerial hdraws, fun text hdefault => ?_⟩
    have hplain := (Table.default_mem_columnOptions_iff.mp hdefault).2.1
    rw [hdraws] at hplain
    contradiction
  · rw [← hserial] at hdraws
    refine ⟨fun keyword hkeyword hshown => ?_, fun hidentity d hd => ?_⟩
    · refine (column.isSerial_or_of_typeText? hkeyword hshown).resolve_left ?_
      rw [hdraws]
      exact Bool.false_ne_true
    · exact Table.default_mem_columnOptions_iff.mpr ⟨hidentity, hdraws, d, hd, rfl⟩

theorem supplied_of_catalogOf {ps : List Piece} (h : (catalogOf default all).result = .ok c)
    (hpieces : (Diff.pieces {} c target).result = .ok ps) (hp : p ∈ Diff.pairs {} c (Text.given target)) :
    Supplied default all c p ps := by
  obtain ⟨hschema, hold, -⟩ := Diff.Pair.get?_of_mem_pairs hp
  have hcontent (kind : ObjectKind) (key : String) : c.at? (.object p.key kind key) = p.schema.at? kind key := by
    rw [Catalog.at?_object, hschema, Option.bind_some]
  refine ⟨fun name t ht hwritten => ?_, fun key q hq => ?_, fun definition column hcolumn hkey t ht shown => ?_⟩
  · have hfound : c.findTable? p.key name = some t := by
      rw [Catalog.findTable?, hschema, Option.bind_some, ht]
    have hcomplete : t.isComplete := by
      by_contra hcomplete
      obtain ⟨htext, -⟩ := (Diff.mem_pieces_iff hpieces rfl).mp hwritten
      refine htext ?_
      show t.ddl p.target = ""
      rw [Table.ddl, Bool.eq_false_of_not_eq_true hcomplete]
      rfl
    obtain ⟨columns, hcolumns, hdeclared⟩ := exists_columnsOf h hfound
    refine ⟨columns, hcolumns, List.forall₂_iff_get.mpr ⟨hdeclared.length_eq, fun i hi hi' => ?_⟩⟩
    exact showsAs_of_declares hcomplete (List.get_mem _ _) (hdeclared.get hi hi')
  · have hfound : c.at? (.object p.key .sequence key) = some (.sequence q) := by
      rw [hcontent]
      exact congrArg (Option.map Content.sequence) hq
    obtain ⟨owner, howner, howned⟩ := ownerOf_of_comes (comes_of_at? h (by simp) hfound) _ _ q rfl rfl
    refine ⟨owner, howner, howned, ?_⟩
    have hnew : p.isNew .sequence key := by
      rw [Diff.Pair.isNew, hold]
      rfl
    have hname : q.name = (key : Field String) := (((filed_catalogOf h).schemas _ _ hschema).sequences key q hq).name
    rw [Diff.mem_tags_sequence_iff hpieces hp hq, howned.isOwned_eq, hname]
    rcases owner with _ | ⟨table, column⟩ <;>
      simp [hnew, Field.isGiven, Json.isNothing, and_comm, Classical.or_iff_not_imp_left]
  · intro hshown hname
    have hfound : c.findTable? (schemaOf default definition.relation) definition.relation.name = some t := by
      rw [Catalog.findTable?, hkey, hschema, Option.bind_some, ht]
    rw [isSerial_iff_owned h hcolumn hfound hshown hname]
    have hsequence (key : String) (q : Sequence) :
        c.at? (.object (schemaOf default definition.relation) .sequence key) = some (.sequence q) ↔
          p.schema.sequences.get? key = some q := by
      rw [hkey, hcontent, Schema.at?, Option.map_eq_some_iff]
      simp
    simp only [hsequence]

/-- A serial column and its sequence. -/
def counter : String :=
  "create table t (a serial, b text)"

/-- Apart from identities, the columns that show as serial are those to which a sequence belongs. -/
def pairsSerials (c : Catalog) : Bool :=
  c.schemas.sortedValues.all fun s => s.tables.sorted.all fun (name, t) => t.columns.all fun column =>
    column.identity.enabled.isGiven ||
      column.isSerial == s.sequences.sortedValues.any fun q =>
        q.ownerTable == (name : Field String) && q.ownerColumn == column.name

end

end SchemaScript
