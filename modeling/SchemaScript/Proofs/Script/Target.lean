import SchemaScript.Proofs.Effect.Gives
import SchemaScript.Proofs.Script.Coverage
import SchemaScript.Proofs.Sql.Quoting

/-!
# Scripts for one schema

A script for one schema asks for that schema, for extensions and for attachments. Of the other schemas
it sees one thing: which of them are new, since it creates them all. So catalogs that agree on the rest
have the same script exactly if the statements that create other schemas are the same
(`target_scripts_eq_iff`).
-/

namespace SchemaScript

variable {old old' new new' : Catalog} {t : String}

/-- The catalogs agree on everything but schemas with other names than `t`. -/
structure Catalog.AgreesOn (t : String) (c c' : Catalog) : Prop where
  metadata : c.metadata = c'.metadata
  extensions : c.extensions = c'.extensions
  partitions : c.partitions = c'.partitions
  indexPartitions : c.indexPartitions = c'.indexPartitions
  schema : c.schemas.get? t = c'.schemas.get? t

namespace Diff

/-! ## What a pass asks the catalog for -/

theorem pairs_some (old new : Catalog) (t : String) :
    pairs old new (some t) = ((new.schemas.get? t).map fun s =>
      { key := t, schema := s, old := old.schemas.get? t, target := some t : Pair }).toList := by
  rw [pairs]
  rcases hs : new.schemas.get? t with _ | s
  · have hnone : new.schemas.sorted.filter (fun entry => (some t).all (· == entry.1)) = [] := by
      refine List.filter_eq_nil_iff.mpr fun entry hentry => ?_
      simp only [Option.all_some, beq_iff_eq]
      rintro rfl
      rw [Entries.get?_of_mem_sorted hentry] at hs
      contradiction
    rw [hnone]
    rfl
  · have hone : new.schemas.sorted.filter (fun entry => (some t).all (· == entry.1)) = [(t, s)] := by
      simpa only [Option.all_some, BEq.comm] using Entries.filter_name_sorted hs
    rw [hone]
    rfl

theorem pairs_eq_of_agreesOn (hold : old.AgreesOn t old') (hnew : new.AgreesOn t new') :
    pairs old new (some t) = pairs old' new' (some t) := by
  rw [pairs_some, pairs_some, hold.schema, hnew.schema]

theorem extensions_eq_of_agreesOn (hold : old.AgreesOn t old') (hnew : new.AgreesOn t new') :
    extensions old new = extensions old' new' := by
  rw [extensions, extensions, hold.extensions, hnew.extensions]

section

variable (h : new.AgreesOn t new')

include h

theorem tableParts_eq_of_agreesOn (p : Pair) (tag : Tag) :
    tableParts p tag new = tableParts p tag new' := by
  have hindex : index p tag new = index p tag new' := by
    funext key i
    rw [index, index, h.indexPartitions]
  funext table
  rw [tableParts, tableParts, hindex]

theorem tablePieces_eq_of_agreesOn (p : Pair) : tablePieces p new = tablePieces p new' := by
  funext ps name table parent
  rw [tablePieces, tablePieces, tableParts_eq_of_agreesOn h]

theorem tableTree_eq_of_agreesOn (p : Pair) (ps : Partitions) (depth : Nat) :
    tableTree p new ps depth = tableTree p new' ps depth := by
  induction depth with
  | zero =>
    funext parent walk name
    rw [tableTree, tableTree]
  | succ depth ih =>
    funext parent walk name
    rw [tableTree, tableTree, tablePieces_eq_of_agreesOn h, ih]

theorem tables_eq_of_agreesOn : tables new = tables new' := by
  have hpartitions : Partitions.inSchema new = Partitions.inSchema new' := by
    funext schema
    rw [Partitions.inSchema, Partitions.inSchema, h.partitions]
  funext p
  rw [tables, tables, walkTables, walkTables, hpartitions]
  simp only [tableTree_eq_of_agreesOn h]

end

/-! ## The script around the statements that create schemas -/

/-- The pieces of the schemas that are gone through. -/
def walked (old new : Catalog) (t : String) : Logged (List Piece) := do
  let walked := pairs old new (some t)
  return (← collect walked types) ++ (← collect walked sequences) ++ (← collect walked (tables new)) ++
    (← collect walked views) ++ (← collect walked functions) ++ (← collect walked aggregates) ++
    (← collect walked procedures)

theorem pieces_some (old new : Catalog) (ht : t ≠ "") :
    pieces old new (some t) = do
      return (← extensions old new) ++ (← schemas old new (some t)) ++ (← walked old new t) := by
  have hgiven : Text.given (some t) = some t := Text.given_eq_some_iff.mpr ⟨rfl, ht⟩
  simp only [pieces, walked, hgiven, bind_assoc, pure_bind, List.append_assoc]

theorem walked_eq_of_agreesOn (hold : old.AgreesOn t old') (hnew : new.AgreesOn t new') :
    walked old new t = walked old' new' t := by
  rw [walked, walked, pairs_eq_of_agreesOn hold hnew, tables_eq_of_agreesOn hnew]

end Diff

/-! ## Texts with a common front and a common end -/

/-- A row of pieces as it stands among others, every block with the blank line after it. -/
def Piece.row (withHeadings : Bool) (pieces : List Piece) : String :=
  String.join ((pieces.map (Piece.block withHeadings)).map (· ++ "\n"))

section

variable {withHeadings : Bool} {m : Metadata}

theorem row_append (ps qs : List Piece) :
    Piece.row withHeadings (ps ++ qs) = Piece.row withHeadings ps ++ Piece.row withHeadings qs := by
  simp only [Piece.row, List.map_append, String.join_append]

theorem intercalate_append_newline {parts : List String} (h : parts ≠ []) :
    "\n".intercalate parts ++ "\n" = String.join (parts.map (· ++ "\n")) := by
  induction parts with
  | nil => contradiction
  | cons part rest ih =>
    rcases rest with _ | ⟨next, rest⟩
    · simp
    · rw [String.intercalate_cons_cons, List.map_cons, String.join_cons, ← ih (by simp)]
      simp only [String.append_assoc]

/-- Parts that are not empty, set apart by blank lines, make the same text exactly if they do so with a
blank line after each. -/
theorem intercalate_eq_iff {parts parts' : List String} (h : ∀ part ∈ parts, part ≠ "")
    (h' : ∀ part ∈ parts', part ≠ "") :
    "\n".intercalate parts = "\n".intercalate parts' ↔
      String.join (parts.map (· ++ "\n")) = String.join (parts'.map (· ++ "\n")) := by
  have hlone {part : String} (rest : List String) (hpart : part ≠ "") :
      "\n".intercalate (part :: rest) ≠ "" := by
    rcases rest with _ | ⟨next, rest⟩
    · simpa using hpart
    · simp [hpart]
  rcases parts with _ | ⟨part, rest⟩ <;> rcases parts' with _ | ⟨part', rest'⟩
  · simp
  · have hne := hlone rest' (h' part' (by simp))
    simp [Ne.symm hne]
  · have hne := hlone rest (h part (by simp))
    simp [hne]
  · rw [← intercalate_append_newline (by simp), ← intercalate_append_newline (by simp)]
    exact (String.append_left_inj "\n").symm

/-- Two scripts that have all but one row of pieces in common. -/
theorem scriptText_eq_iff (withHeadings : Bool) (m : Metadata) (before after made made' : List Piece) :
    scriptText withHeadings m (before ++ made ++ after) =
        scriptText withHeadings m (before ++ made' ++ after) ↔
      Piece.row withHeadings made = Piece.row withHeadings made' := by
  have hparts (ps : List Piece) :
      ∀ part ∈ scriptHead withHeadings m ++ ps.map (Piece.block withHeadings), part ≠ "" := by
    intro part hpart
    rcases List.mem_append.mp hpart with hpart | hpart
    · cases withHeadings with
      | false => simp [scriptHead] at hpart
      | true =>
        obtain rfl : part = Sink.provenance m := by simpa [scriptHead] using hpart
        unfold Sink.provenance
        exact Sink.written_ne_empty_of_append (by decide)
    · obtain ⟨x, -, rfl⟩ := List.mem_map.mp hpart
      exact Sink.written_ne_empty_of_append (by decide)
  have hrow (ps : List Piece) :
      String.join ((scriptHead withHeadings m ++ ps.map (Piece.block withHeadings)).map (· ++ "\n")) =
        String.join ((scriptHead withHeadings m).map (· ++ "\n")) ++ Piece.row withHeadings ps := by
    rw [List.map_append, String.join_append, Piece.row]
  rw [scriptText, scriptText, intercalate_eq_iff (hparts _) (hparts _), hrow, hrow]
  simp only [row_append, String.append_assoc, String.append_right_inj, String.append_left_inj]

end

/-! ## The statements that create other schemas -/

namespace Diff

/-- The names under which a script for the schema `t` creates others: those of the new schemas, in the
order of their keys. -/
def createdNames (old new : Catalog) (t : String) : List String :=
  ((new.schemas.sorted.filter fun entry => !old.schemas.contains entry.1 && some entry.1 != some t).filterMap
    fun entry => entry.2.name.given).filter (· != "public")

/-- One statement and the blank line after it. -/
def creation (name : String) : String :=
  "CREATE SCHEMA " ++ Sql.quoteName name ++ ";" ++ "\n" ++ "\n"

-- by this equation the text is opened at once; the one that is made for the definition takes seconds
theorem creation_eq (name : String) :
    creation name = "CREATE SCHEMA " ++ Sql.quoteName name ++ ";" ++ "\n" ++ "\n" := rfl

theorem row_schemas {made : List Piece} (h : (schemas old new (some t)).result = .ok made) :
    Piece.row false made = String.join ((createdNames old new t).map creation) := by
  obtain ⟨-, rfl⟩ := (collect_emit_eq_ok (fun entry : String × Schema =>
    schemaPiece (some t) entry.1 entry.2) fun entry => entry.2.check).mp h
  rw [createdNames]
  generalize new.schemas.sorted.filter _ = added
  induction added with
  | nil => rfl
  | cons entry added ih =>
    have hcons (x : Piece) (ps : List Piece) :
        Piece.row false (x :: ps) = x.text ++ "\n" ++ "\n" ++ Piece.row false ps := by
      simp [Piece.row, Piece.block]
    rw [List.map_cons, List.filter_cons, List.filterMap_cons]
    rcases hname : entry.2.name.given with _ | name
    · have htext : (schemaPiece (some t) entry.1 entry.2).text = "" := by
        simp [schemaPiece, Schema.ddl, hname]
      simpa [htext] using ih
    · by_cases hpublic : name = "public"
      · have htext : (schemaPiece (some t) entry.1 entry.2).text = "" := by
          simp [schemaPiece, Schema.ddl, hname, hpublic]
        simpa [htext, hpublic] using ih
      · have htext : (schemaPiece (some t) entry.1 entry.2).text =
            "CREATE SCHEMA " ++ Sql.quoteName name ++ ";" := by
          simp [schemaPiece, Schema.ddl, hname, hpublic]
        rw [if_pos (by simp [htext]), List.filter_cons_of_pos (by simpa using hpublic), List.map_cons,
          String.join_cons, hcons, ih, htext, creation_eq]

theorem creation_append_inj {a b r s : String} (h : creation a ++ r = creation b ++ s) :
    a = b ∧ r = s := by
  have hlists := congrArg String.toList h
  simp only [creation_eq, String.append_assoc, String.toList_append] at hlists
  obtain ⟨hname, hrest⟩ := Sql.quoteName_append_inj (d := ';') (by decide)
    (List.append_cancel_left hlists)
  have hends : ['\n', '\n'] ++ r.toList = ['\n', '\n'] ++ s.toList := hrest
  exact ⟨hname, String.toList_injective (List.append_cancel_left hends)⟩

/-- The names can be read off the row of statements. -/
theorem creations_inj {names names' : List String}
    (h : String.join (names.map creation) = String.join (names'.map creation)) : names = names' := by
  have hne (name : String) (rest : List String) :
      String.join ((name :: rest).map creation) ≠ "" := by
    rw [List.map_cons, String.join_cons, creation_eq]
    simp
  induction names generalizing names' with
  | nil =>
    rcases names' with _ | ⟨name', rest'⟩
    · rfl
    · exact (hne name' rest' h.symm).elim
  | cons name rest ih =>
    rcases names' with _ | ⟨name', rest'⟩
    · exact (hne name rest h).elim
    · rw [List.map_cons, List.map_cons, String.join_cons, String.join_cons] at h
      obtain ⟨rfl, hrest⟩ := creation_append_inj h
      rw [ih hrest]

/-- Without headings, the same schemas are created if the same text is written for them. -/
theorem row_schemas_eq_iff {made made' : List Piece}
    (h : (schemas old new (some t)).result = .ok made)
    (h' : (schemas old' new' (some t)).result = .ok made') :
    Piece.row false made = Piece.row false made' ↔
      createdNames old new t = createdNames old' new' t := by
  rw [row_schemas h, row_schemas h']
  exact ⟨creations_inj, fun hnames => by rw [hnames]⟩

end Diff

/-! ## Catalogs that agree on one schema -/

/-- A script from what stands before the statements that create schemas, these, and what follows them. -/
def scriptOf (withHeadings : Bool) (m : Metadata) (before made after : Except Fault (List Piece)) :
    Except Fault String := do
  return renderPieces withHeadings m ((← before) ++ (← made) ++ (← after))

theorem result_diff_some (old new : Catalog) (ht : t ≠ "") (withHeadings : Bool) :
    (old.diff new (some t) withHeadings).result =
      scriptOf withHeadings new.metadata (Diff.extensions old new).result
        (Diff.schemas old new (some t)).result (Diff.walked old new t).result := by
  simp only [Catalog.diff, Diff.pieces_some old new ht, scriptOf, Logged.result_bind,
    Logged.result_pure, bind_assoc]
  rfl

theorem scriptOf_eq_ok {withHeadings : Bool} {m : Metadata}
    {before made after : Except Fault (List Piece)} {text : String}
    (h : scriptOf withHeadings m before made after = .ok text) :
    ∃ first row last, before = .ok first ∧ made = .ok row ∧ after = .ok last ∧
      text = scriptText withHeadings m (first ++ row ++ last) := by
  rcases before with fault | first
  · cases h
  rcases made with fault | row
  · cases h
  rcases after with fault | last
  · cases h
  obtain ⟨rfl⟩ := h
  exact ⟨first, row, last, rfl, rfl, rfl, renderPieces_eq _ _ _⟩

/-- Catalogs that agree on everything but schemas with other names than `t` have scripts for `t` that are
the same in front of and behind the statements that create other schemas. So the scripts are the same
exactly if those statements are; without headings, exactly if the same schemas are created. -/
theorem target_scripts_eq_iff (ht : t ≠ "") (hold : old.AgreesOn t old') (hnew : new.AgreesOn t new')
    (withHeadings : Bool) :
    (∃ before after,
      (old.diff new (some t) withHeadings).result = scriptOf withHeadings new.metadata before
        (Diff.schemas old new (some t)).result after ∧
      (old'.diff new' (some t) withHeadings).result = scriptOf withHeadings new.metadata before
        (Diff.schemas old' new' (some t)).result after) ∧
    ∀ text text', (old.diff new (some t) withHeadings).result = .ok text →
      (old'.diff new' (some t) withHeadings).result = .ok text' →
      ∃ made made', (Diff.schemas old new (some t)).result = .ok made ∧
        (Diff.schemas old' new' (some t)).result = .ok made' ∧
        (text = text' ↔ Piece.row withHeadings made = Piece.row withHeadings made') ∧
        (withHeadings = false →
          (text = text' ↔ Diff.createdNames old new t = Diff.createdNames old' new' t)) := by
  have hscript := result_diff_some old new ht withHeadings
  have hscript' := result_diff_some old' new' ht withHeadings
  rw [← Diff.extensions_eq_of_agreesOn hold hnew, ← Diff.walked_eq_of_agreesOn hold hnew,
    ← hnew.metadata] at hscript'
  refine ⟨⟨_, _, hscript, hscript'⟩, fun text text' htext htext' => ?_⟩
  rw [hscript] at htext
  rw [hscript'] at htext'
  obtain ⟨first, made, last, hfirst, hmade, hlast, rfl⟩ := scriptOf_eq_ok htext
  obtain ⟨first', made', last', hfirst', hmade', hlast', rfl⟩ := scriptOf_eq_ok htext'
  obtain rfl := Except.ok.inj (hfirst.symm.trans hfirst')
  obtain rfl := Except.ok.inj (hlast.symm.trans hlast')
  have hrow := scriptText_eq_iff withHeadings new.metadata first last made made'
  refine ⟨made, made', hmade, hmade', hrow, ?_⟩
  rintro rfl
  rw [hrow, Diff.row_schemas_eq_iff hmade hmade']

/-- A catalog with one table in `public`, and with the schemas of those names beside it. -/
def ledger (others : List String) : Catalog where
  schemas := .ofPairs (("public",
      { name := "public"
        tables := .ofPairs [("t", { schema := "public", name := "t",
                                    columns := [{ name := "a", position := (1 : Int), dataType := "int" }] })] }) ::
    others.map fun name => (name, { name := (name : Field String) }))

/-- A schema beside the one that the script is for comes into the script. -/
theorem ledger_scripts_differ :
    (ledger []).AgreesOn "public" (ledger ["audit"]) ∧
    (({} : Catalog).diff (ledger []) (some "public") false).result =
      .ok "CREATE TABLE t (\n    a integer\n);\n" ∧
    (({} : Catalog).diff (ledger ["audit"]) (some "public") false).result =
      .ok "CREATE SCHEMA audit;\n\nCREATE TABLE t (\n    a integer\n);\n" ∧
    Diff.createdNames {} (ledger []) "public" ≠ Diff.createdNames {} (ledger ["audit"]) "public" := by
  have hagree : (ledger []).AgreesOn "public" (ledger ["audit"]) := ⟨rfl, rfl, rfl, rfl, by decide +kernel⟩
  have hplain : (({} : Catalog).diff (ledger []) (some "public") false).result =
      .ok "CREATE TABLE t (\n    a integer\n);\n" := by decide +kernel
  have haudit : (({} : Catalog).diff (ledger ["audit"]) (some "public") false).result =
      .ok "CREATE SCHEMA audit;\n\nCREATE TABLE t (\n    a integer\n);\n" := by decide +kernel
  refine ⟨hagree, hplain, haudit, fun hnames => ?_⟩
  have hempty : ({} : Catalog).AgreesOn "public" {} := ⟨rfl, rfl, rfl, rfl, rfl⟩
  obtain ⟨made, made', -, -, -, hiff⟩ :=
    (target_scripts_eq_iff (by decide) hempty hagree false).2 _ _ hplain haudit
  exact absurd ((hiff rfl).mpr hnames) (by decide)

end SchemaScript
