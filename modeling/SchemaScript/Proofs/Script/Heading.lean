import SchemaScript.Proofs.Sql.Comments
import SchemaScript.Script.Diff
import SchemaScript.Script.Piece

/-!
# Scripts as texts

A script is its pieces, set apart by blank lines (`renderPieces_eq`). Its headings are comments exactly if no text that
they show breaks out of its line (`headings_commented_iff`).
-/

/-!
## The text of a script

`renderPieces_eq`: a script is what stands above it and the blocks of its pieces, set apart by one
blank line each. A block is a piece's heading, if headings are asked for, its statement and a line end.
-/

namespace SchemaScript

/-- What one piece takes up in a script. -/
def Piece.block (withHeadings : Bool) (x : Piece) : String :=
  (if withHeadings then Sink.heading x.kind.label x.name x.schema x.owner else "") ++ x.text ++ "\n"

/-- What stands above the pieces. -/
def scriptHead (withHeadings : Bool) (m : Metadata) : List String :=
  if withHeadings then [Sink.provenance m] else []

/-- Every part ends with a line end, so a line end between two of them makes a blank line. -/
def scriptText (withHeadings : Bool) (m : Metadata) (pieces : List Piece) : String :=
  "\n".intercalate (scriptHead withHeadings m ++ pieces.map (Piece.block withHeadings))

@[simp] theorem scriptText_nil (withHeadings : Bool) (m : Metadata) :
    scriptText withHeadings m [] = if withHeadings then Sink.provenance m else "" := by
  cases withHeadings <;> rfl

namespace Sink

theorem written_ne_empty_of_append {lead text : String} (h : text ≠ "") : lead ++ text ≠ "" := by
  intro he
  exact h (String.append_eq_empty_iff.mp he).2

/-- Whatever follows the first text comes after a blank line. -/
theorem foldl_piece_of_ne_empty {withHeadings : Bool} {written : String} (h : written ≠ "")
    (pieces : List Piece) :
    pieces.foldl piece ⟨withHeadings, written⟩ =
      ⟨withHeadings, "\n".intercalate (written :: pieces.map (Piece.block withHeadings))⟩ := by
  induction pieces generalizing written with
  | nil => simp
  | cons x pieces ih =>
    have hnext : piece ⟨withHeadings, written⟩ x =
        ⟨withHeadings, written ++ ("\n" ++ x.block withHeadings)⟩ := by
      simp [piece, separate, h, statement, write, Piece.block, String.append_assoc]
    rw [List.foldl_cons, hnext, ih (written_ne_empty_of_append (by simp))]
    simp [String.append_assoc]

end Sink

theorem renderPieces_eq (withHeadings : Bool) (m : Metadata) (pieces : List Piece) :
    renderPieces withHeadings m pieces = scriptText withHeadings m pieces := by
  cases withHeadings with
  | true =>
    have hne : Sink.provenance m ≠ "" := by
      unfold Sink.provenance
      exact Sink.written_ne_empty_of_append (by decide)
    have hstart : Sink.writeProvenance { withHeadings := true } m = ⟨true, Sink.provenance m⟩ := by
      simp [Sink.writeProvenance, Sink.write]
    simp only [renderPieces, if_true, hstart, Sink.foldl_piece_of_ne_empty hne]
    rfl
  | false =>
    rcases pieces with _ | ⟨x, pieces⟩
    · rfl
    · have hfirst : Sink.piece { withHeadings := false } x = ⟨false, x.block false⟩ := by
        simp [Sink.piece, Sink.separate, Sink.statement, Sink.write, Piece.block]
      have hne : x.block false ≠ "" := Sink.written_ne_empty_of_append (by decide)
      simp only [renderPieces, Bool.false_eq_true, if_false, List.foldl_cons, hfirst,
        Sink.foldl_piece_of_ne_empty hne]
      rfl

end SchemaScript

/-!
## Headings and the statements between them

Headings show names, schemas, owners and versions as they are. All their lines are comments exactly if
every line end inside those texts is followed by one more comment line (`headings_commented_iff`). Then, and if no
statement reaches beyond its last line, a script has the same words with headings and without.
-/

namespace SchemaScript

/-! ### What headings show -/

def Piece.heading (x : Piece) : String :=
  Sink.heading x.kind.label x.name x.schema x.owner

/-- The texts that are added to a script of these pieces. -/
def headings (m : Metadata) (pieces : List Piece) : List String :=
  Sink.provenance m :: pieces.map Piece.heading

/-- A text goes on in comment lines only. -/
def StaysCommented (text : String) : Prop :=
  Sql.StaysCommented text.toList

instance (text : String) : Decidable (StaysCommented text) :=
  inferInstanceAs (Decidable (Sql.StaysCommented text.toList))

/-- What a heading shows about a piece stays in comment lines; name and schema end before a semicolon. -/
structure Piece.StaysCommented (x : Piece) : Prop where
  name : SchemaScript.StaysCommented (x.name ++ ";")
  schema : SchemaScript.StaysCommented (x.schema ++ ";")
  owner : SchemaScript.StaysCommented (Text.givenOr x.owner "-")

structure Metadata.StaysCommented (m : Metadata) : Prop where
  databaseVersion : SchemaScript.StaysCommented m.databaseVersion.spelled
  dumpVersion : SchemaScript.StaysCommented m.dumpVersion.spelled

theorem PieceKind.inLine_label (kind : PieceKind) : Sql.InLine kind.label.toList := by
  cases kind <;> decide

/-- What the middle line of a heading shows behind its first words. -/
def shown (kind name schema : String) (owner : Option String) : List Char :=
  name.toList ++ ';' :: (" Type: ".toList ++ (kind.toList ++ ("; Schema: ".toList ++
    (schema.toList ++ ';' :: (" Owner: ".toList ++ (Text.givenOr owner "-").toList)))))

/-- All that varies in a heading stands in its middle line. -/
theorem Sink.toList_heading (kind name schema : String) (owner : Option String) :
    (heading kind name schema owner).toList =
      "--\n-- Name: ".toList ++ (shown kind name schema owner ++ "\n--\n\n".toList) := by
  have happend (a b c d e : String) :
      (a ++ name ++ b ++ kind ++ c ++ schema ++ d ++ Text.givenOr owner "-" ++ e).toList =
        a.toList ++ (name.toList ++ (b.toList ++ (kind.toList ++ (c.toList ++ (schema.toList ++
          (d.toList ++ (Text.givenOr owner "-").toList))))) ++ e.toList) := by
    simp only [String.toList_append, List.append_assoc]
  exact happend "--\n-- Name: " "; Type: " "; Schema: " "; Owner: " "\n--\n\n"

theorem staysCommented_shown_iff (kind : PieceKind) (name schema : String) (owner : Option String) :
    Sql.StaysCommented (shown kind.label name schema owner) ↔
      StaysCommented (name ++ ";") ∧ StaysCommented (schema ++ ";") ∧
        StaysCommented (Text.givenOr owner "-") := by
  have hend (text : String) : text.toList ++ [';'] = (text ++ ";").toList := by
    rw [String.toList_append]
    rfl
  rw [shown, Sql.staysCommented_append_cons (by rfl) (by decide), hend,
    Sql.staysCommented_inLine_append (by decide),
    Sql.staysCommented_inLine_append kind.inLine_label,
    Sql.staysCommented_inLine_append (by decide),
    Sql.staysCommented_append_cons (a := schema.toList) (by rfl) (by decide), hend,
    Sql.staysCommented_inLine_append (by decide)]
  rfl

theorem Piece.commented_heading_iff (x : Piece) :
    Sql.Commented x.heading.toList ↔ x.StaysCommented := by
  have haround : Sql.Commented ("--\n-- Name: ".toList ++
      (shown x.kind.label x.name x.schema x.owner ++ "\n--\n\n".toList)) ↔
        Sql.StaysCommented (shown x.kind.label x.name x.schema x.owner) :=
    Sql.commented_around ['-', '-'] "-- Name: ".toList "--\n\n".toList
      (by decide) (by decide) (by decide) (by decide)
  rw [heading, Sink.toList_heading, haround, staysCommented_shown_iff]
  exact ⟨fun h => ⟨h.1, h.2.1, h.2.2⟩, fun h => ⟨h.name, h.schema, h.owner⟩⟩

theorem Sink.toList_provenance (m : Metadata) :
    (provenance m).toList =
      "--\n-- PostgreSQL database dump\n--\n\n-- Dumped from database version ".toList ++
        ((m.databaseVersion.spelled.toList ++ ("\n-- Dumped by ".toList ++
          m.dumpVersion.spelled.toList)) ++ "\n".toList) := by
  have happend (a b c : String) :
      (a ++ m.databaseVersion.spelled ++ b ++ m.dumpVersion.spelled ++ c).toList =
        a.toList ++ ((m.databaseVersion.spelled.toList ++ (b.toList ++
          m.dumpVersion.spelled.toList)) ++ c.toList) := by
    simp only [String.toList_append, List.append_assoc]
  exact happend "--\n-- PostgreSQL database dump\n--\n\n-- Dumped from database version "
    "\n-- Dumped by " "\n"

theorem Metadata.commented_provenance_iff (m : Metadata) :
    Sql.Commented (Sink.provenance m).toList ↔ m.StaysCommented := by
  have haround (versions : List Char) :
      Sql.Commented ("--\n-- PostgreSQL database dump\n--\n\n-- Dumped from database version ".toList ++
        (versions ++ "\n".toList)) ↔ Sql.StaysCommented versions :=
    Sql.commented_around "--\n-- PostgreSQL database dump\n--\n".toList
      "-- Dumped from database version ".toList []
      (by decide) (by decide) (by decide) (by decide)
  have hnext (before after : List Char) :
      Sql.StaysCommented (before ++ ("\n-- Dumped by ".toList ++ after)) ↔
        Sql.StaysCommented before ∧ Sql.Commented ("-- Dumped by ".toList ++ after) :=
    Sql.staysCommented_newline (c := '\n') (by rfl)
  rw [Sink.toList_provenance, haround, hnext,
    Sql.commented_dashes_append (a := "-- Dumped by ".toList) (by decide) (by decide)]
  exact ⟨fun h => ⟨h.1, h.2⟩, fun h => ⟨h.databaseVersion, h.dumpVersion⟩⟩

/-! ### Words of a script -/

theorem Piece.suffix_heading (x : Piece) : ['\n'] <:+ x.heading.toList := by
  rw [heading, Sink.toList_heading, ← List.append_assoc]
  exact (by decide : ['\n'] <:+ "\n--\n\n".toList).trans (List.suffix_append _ _)

theorem Metadata.suffix_provenance (m : Metadata) : ['\n'] <:+ (Sink.provenance m).toList := by
  rw [Sink.toList_provenance, ← List.append_assoc]
  exact List.suffix_append _ _

/-- Comment lines that the scanner passes over. -/
def IsRemark (text : String) : Prop :=
  Sql.Commented text.toList ∧ '\x00' ∉ text.toList

/-- The blocks of the pieces, each behind the line end that sets it apart. -/
def blockRow (withHeadings : Bool) (pieces : List Piece) : List Char :=
  pieces.flatMap fun x => '\n' :: (x.block withHeadings).toList

theorem toList_intercalate (first : String) (rest : List String) :
    ("\n".intercalate (first :: rest)).toList =
      first.toList ++ rest.flatMap fun s => '\n' :: s.toList :=
  Sql.toList_intercalate_cons "\n" first rest

theorem toList_scriptText_true (m : Metadata) (pieces : List Piece) :
    (scriptText true m pieces).toList = (Sink.provenance m).toList ++ blockRow true pieces := by
  rw [scriptText, scriptHead, if_pos rfl, List.singleton_append, toList_intercalate,
    List.flatMap_map, blockRow]

theorem toList_scriptText_false (m : Metadata) (x : Piece) (pieces : List Piece) :
    (scriptText false m (x :: pieces)).toList =
      (x.block false).toList ++ blockRow false pieces := by
  rw [scriptText, scriptHead, if_neg (by decide), List.nil_append, List.map_cons,
    toList_intercalate, List.flatMap_map, blockRow]

section

variable {words : Piece → List Sql.Token} {withHeadings : Bool} {pieces : List Piece}

/-- Of a block only the words of its statement are read. -/
theorem reads_block {x : Piece} {rest : List Char} {more : List Sql.Token}
    (hheading : withHeadings → IsRemark x.heading)
    (hx : Sql.StandsAlone x.text.toList (words x)) (hrest : Sql.Reads rest more) :
    Sql.Reads ((x.block withHeadings).toList ++ rest) (words x ++ more) := by
  have hown : Sql.Reads (x.text.toList ++ '\n' :: rest) (words x ++ more) := hx.reads hrest
  have hline (lead : String) : (lead ++ x.text ++ "\n").toList ++ rest =
      lead.toList ++ (x.text.toList ++ '\n' :: rest) := by
    simp [String.toList_append]
  cases withHeadings with
  | true =>
    rw [Piece.block, if_pos rfl, hline]
    exact hown.behind (hheading rfl).1 x.suffix_heading (hheading rfl).2
  | false =>
    rw [Piece.block, if_neg (by decide), hline]
    exact hown

theorem reads_blockRow (hheadings : withHeadings → ∀ x ∈ pieces, IsRemark x.heading)
    (halone : ∀ x ∈ pieces, Sql.StandsAlone x.text.toList (words x)) :
    Sql.Reads (blockRow withHeadings pieces) (pieces.flatMap words) := by
  induction pieces with
  | nil => exact Sql.reads_nil
  | cons x pieces ih =>
    have hrest := ih (fun h y hy => hheadings h y (List.mem_cons_of_mem x hy))
      fun y hy => halone y (List.mem_cons_of_mem x hy)
    exact (reads_block (fun h => hheadings h x (by simp)) (halone x (by simp)) hrest).behind_newline

/-- Headings that are comments leave the words of a script as they are. -/
theorem scan_scriptText {m : Metadata} (hadded : ∀ text ∈ headings m pieces, IsRemark text)
    (halone : ∀ x ∈ pieces, Sql.StandsAlone x.text.toList (words x)) :
    (Sql.scan (scriptText true m pieces)).map (·.token) =
      (Sql.scan (scriptText false m pieces)).map (·.token) := by
  have hprovenance : IsRemark (Sink.provenance m) := hadded _ (by simp [headings])
  have hheadings : ∀ x ∈ pieces, IsRemark x.heading := fun x hx =>
    hadded _ (List.mem_cons_of_mem _ (List.mem_map_of_mem hx))
  have htrue : Sql.Reads (scriptText true m pieces).toList (pieces.flatMap words) := by
    rw [toList_scriptText_true]
    exact (reads_blockRow (fun _ => hheadings) halone).behind hprovenance.1 m.suffix_provenance
      hprovenance.2
  have hfalse : Sql.Reads (scriptText false m pieces).toList (pieces.flatMap words) := by
    rcases pieces with _ | ⟨x, pieces⟩
    · exact Sql.reads_nil
    · rw [toList_scriptText_false]
      exact reads_block (by simp) (halone x (by simp))
        (reads_blockRow (by simp) fun y hy => halone y (List.mem_cons_of_mem x hy))
  exact Sql.scan_eq_of_reads htrue hfalse

end

/-- Exactly the pieces and versions that stay in comment lines are shown as comments. If all do, headings
add no word to statements that stand alone. -/
theorem Catalog.headings_commented_iff {old new : Catalog} {target : Option String}
    {pieces : List Piece} (h : (Diff.pieces old new target).result = .ok pieces) :
    (old.diff new target true).result = .ok (scriptText true new.metadata pieces) ∧
      (old.diff new target false).result = .ok (scriptText false new.metadata pieces) ∧
      ((∀ text ∈ headings new.metadata pieces, Sql.Commented text.toList) ↔
        new.metadata.StaysCommented ∧ ∀ x ∈ pieces, x.StaysCommented) ∧
      ∀ words : Piece → List Sql.Token,
        (∀ text ∈ headings new.metadata pieces, IsRemark text) →
        (∀ x ∈ pieces, Sql.StandsAlone x.text.toList (words x)) →
        (Sql.scan (scriptText true new.metadata pieces)).map (·.token) =
          (Sql.scan (scriptText false new.metadata pieces)).map (·.token) := by
  have hscript (withHeadings : Bool) : (old.diff new target withHeadings).result =
      .ok (scriptText withHeadings new.metadata pieces) :=
    Logged.result_bind_eq_ok.mpr ⟨pieces, h, by rw [renderPieces_eq]; rfl⟩
  refine ⟨hscript true, hscript false, ?_, fun words hadded halone => scan_scriptText hadded halone⟩
  simp only [headings, List.forall_mem_cons, List.forall_mem_map, Metadata.commented_provenance_iff,
    Piece.commented_heading_iff]

/-! ### A name with a line break -/

def Catalog.ofSchema (name : String) : Catalog :=
  { schemas := Entries.empty.put name { name := (name : Field String) } }

def Piece.ofSchema (name text : String) : Piece :=
  { tag := .schema name, kind := .schema, name, schema := "-", text }

def shelfPiece : Piece :=
  .ofSchema "shelf" "CREATE SCHEMA shelf;"

def tillName : String :=
  "till\nDROP TABLE coins; --"

def tillPiece : Piece :=
  .ofSchema tillName "CREATE SCHEMA \"till\nDROP TABLE coins; --\";"

/-- The second line of the name of `till` becomes a statement; the heading of `shelf` adds no word. -/
theorem till_heading_breaks :
    (Diff.pieces {} (.ofSchema tillName) none).result = .ok [tillPiece] ∧
      ¬ (∀ text ∈ headings {} [tillPiece], Sql.Commented text.toList) ∧
      (Sql.scan (scriptText true {} [tillPiece])).map (·.token) ≠
        (Sql.scan (scriptText false {} [tillPiece])).map (·.token) ∧
      (Diff.pieces {} (.ofSchema "shelf") none).result = .ok [shelfPiece] ∧
      (Sql.scan (scriptText true {} [shelfPiece])).map (·.token) =
        (Sql.scan (scriptText false {} [shelfPiece])).map (·.token) := by
  have htill : (Diff.pieces {} (.ofSchema tillName) none).result = .ok [tillPiece] := by
    decide +kernel
  have hshelf : (Diff.pieces {} (.ofSchema "shelf") none).result = .ok [shelfPiece] := by
    decide +kernel
  obtain ⟨-, -, hcommented, -⟩ := Catalog.headings_commented_iff htill
  obtain ⟨-, -, -, hwords⟩ := Catalog.headings_commented_iff hshelf
  have halone : Sql.StandsAlone shelfPiece.text.toList
      [.word "create", .word "schema", .word "shelf", .symbol ";"] :=
    Sql.standsAlone_of_frontWords (n := 4) (by decide) (by decide) fun _ => rfl
  refine ⟨htill, fun hall => ?_, by decide +kernel, hshelf, ?_⟩
  · have hname := ((hcommented.mp hall).2 tillPiece (by simp)).name
    exact absurd hname (by decide +kernel)
  · have hremarks : ∀ text ∈ headings {} [shelfPiece],
        Sql.Commented text.toList ∧ '\x00' ∉ text.toList := by
      decide +kernel
    exact hwords (fun _ => _) hremarks (List.forall_mem_singleton.mpr halone)

end SchemaScript
