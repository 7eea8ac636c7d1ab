import SchemaScript.Effect.Script
import SchemaScript.Proofs.Script.Emission
import SchemaScript.Proofs.Script.Heading
import SchemaScript.Proofs.Sql.TriggerScript
import SchemaScript.Proofs.Sql.TypeName

/-!
# Scripts read again

The script that is written for a catalog can be read again and written once more. The function of a
trigger is written without quotes, whatever it is called. `redumped_trigger_iff`: such a script comes
back as it was just when its function's name is in lower case and is a word that can name a function.
-/

namespace SchemaScript

open Sql Logged

/-- The script for what a script describes. -/
def redumped (target : Option String) (sql : String) : Except Fault String := do
  let catalog ← (Catalog.ofSql sql "public").result
  (catalog.dump target false).result

/-! ## The catalog -/

def triggerCalling (function : String) : Trigger :=
  { schema := "public"
    table := "t"
    name := "f"
    timing := .before
    events := [.insert]
    granularity := .statement
    function }

def triggerTable (function : String) : Table :=
  { schema := "public"
    name := "t"
    columns := [{ name := "a", position := (1 : Int), dataType := "integer" }]
    triggers := Entries.put .empty "f" (triggerCalling function) }

def triggerSchema (function : String) : Schema :=
  { name := "public"
    tables := Entries.put .empty "t" (triggerTable function) }

def triggerCatalog (function : String) : Catalog :=
  { metadata := { source := "sql", dumpVersion }
    schemas := Entries.put .empty "public" (triggerSchema function) }

theorem catalogOf_triggerStatement (qualified : Bool) (m : String) :
    (Effect.catalogOf "public" [tableStatement qualified, triggerStatement qualified m]).result =
      .ok (triggerCatalog m) := by
  have hfunction : ".".intercalate [m] ++ "" = m := by simp
  have hcatalog : (Effect.catalogOf "public"
      [tableStatement qualified, triggerStatement qualified m]).result =
        .ok (triggerCatalog (".".intercalate [m] ++ "")) := by
    cases qualified <;> rfl
  rw [hcatalog, hfunction]

/-! ## Its statements -/

/-- The target schema whose scripts refer to the table in this way. -/
def targetOf (qualified : Bool) : Option String :=
  if qualified then none else some "public"

def triggerPair (qualified : Bool) (function : String) : Diff.Pair :=
  { key := "public", schema := triggerSchema function, old := none, target := targetOf qualified }

def tablePiece (qualified : Bool) (function : String) : Piece :=
  { tag := .object "public" .table "t"
    kind := .table
    name := "t"
    schema := (triggerPair qualified function).heading
    text := "CREATE TABLE " ++ tableText qualified ++ " (\n    a integer\n);" }

def triggerPiece (qualified : Bool) (function : String) : Piece :=
  { tag := .object "public" .table "t"
    kind := .trigger
    name := "f"
    schema := (triggerPair qualified function).heading
    text := "CREATE TRIGGER f BEFORE INSERT ON " ++ tableText qualified ++
      " FOR EACH STATEMENT EXECUTE FUNCTION " ++ function ++ "();" }

def triggerPieces (qualified : Bool) (function : String) : List Piece :=
  [tablePiece qualified function, triggerPiece qualified function]

/-- The statement of a table says nothing of its triggers. -/
theorem ddl_triggerTable (qualified : Bool) (m : String) :
    (triggerTable m).ddl (targetOf qualified) =
      "CREATE TABLE " ++ tableText qualified ++ " (\n    a integer\n);" := by
  have hm : (triggerTable m).ddl (targetOf qualified) =
      (triggerTable "").ddl (targetOf qualified) := rfl
  rw [hm]
  cases qualified <;> decide +kernel

theorem check_triggerTable (qualified : Bool) (m : String) :
    (triggerTable m).check (targetOf qualified) = .ok () := by
  cases qualified <;> rfl

section

variable {name : List Char}

/-- A name holds neither the point behind a schema nor the parenthesis behind arguments. -/
theorem functionText_of_isName (h : IsName name) (qualified : Bool) :
    Trigger.functionText (some (String.ofList name)) (targetOf qualified) =
      String.ofList name ++ "()" := by
  have hdrop : dropSchema (some (String.ofList name)) (targetOf qualified) = some (String.ofList name) :=
    dropSchema_of_no_point (by simpa using h.not_mem (c := '.') (by decide)) _
  have hend : Text.endsWith (String.ofList name) ")" = false := by
    rw [Text.endsWith, ← Bool.not_eq_true, List.isSuffixOf_iff_suffix]
    intro hs
    exact h.not_mem (c := ')') (by decide) (by simpa using hs.subset)
  rw [Trigger.functionText, hdrop, Text.spelled_some, hend]
  rfl

theorem ddl_triggerCalling (h : IsName name) (qualified : Bool) :
    (triggerCalling (String.ofList name)).ddl (targetOf qualified) =
      (triggerPiece qualified (String.ofList name)).text := by
  have hcomplete : (triggerCalling (String.ofList name)).isComplete := by
    have hne : name ≠ [] := by
      rintro rfl
      exact absurd h.1 (by decide)
    have hgiven : (⟨.text (String.ofList name)⟩ : Field String).isGiven := by
      simp [Field.isGiven, Json.isNothing, hne]
    show (true && true && Field.isGiven _ && true) = true
    rw [Bool.true_and, Bool.and_true]
    exact hgiven
  have htable : Ddl.reference (⟨.text "public"⟩ : Field String) (⟨.text "t"⟩ : Field String)
      (targetOf qualified) = tableText qualified := by
    cases qualified <;> decide +kernel
  have hname : Ddl.nameText (⟨.text "f"⟩ : Field String) = "f" := by decide +kernel
  have hevents : Trigger.eventText [.insert] = "INSERT" := by decide +kernel
  have hfunction : (triggerCalling (String.ofList name)).function.text? =
      some (String.ofList name) := Field.text?_text _
  rw [Trigger.ddl, hcomplete]
  simp only [Bool.not_true, Bool.false_eq_true, if_false, hfunction, functionText_of_isName h]
  simp only [triggerCalling, htable, hname, hevents, triggerPiece, Timing.sql, Granularity.text,
    Field.given_absent, Ddl.commentAfter]
  simp [String.append_assoc]

theorem check_triggerCalling (m : String) : (triggerCalling m).check = .ok () := by
  rw [Trigger.check]
  split
  · rfl
  · simp only [triggerCalling, Ddl.needReference, Field.needText_text, Field.needText_absent]
    rfl

/-! ## Its script -/

theorem emit_triggerCalling (h : IsName name) (qualified : Bool) :
    (Diff.emit (.object "public" .table "t") .trigger "f"
      (triggerPair qualified (String.ofList name)).heading none
      (triggerCalling (String.ofList name)).check
      ((triggerCalling (String.ofList name)).ddl (targetOf qualified))).result =
        .ok [triggerPiece qualified (String.ofList name)] := by
  refine Diff.emit_eq_ok.mpr ⟨check_triggerCalling _, ?_⟩
  rw [ddl_triggerCalling h, if_neg]
  · rfl
  · intro hempty
    simp [triggerPiece] at hempty

theorem emit_triggerTable (qualified : Bool) (m : String) :
    (Diff.emit (.object "public" .table "t") .table "t" (triggerPair qualified m).heading none
      ((triggerTable m).check (targetOf qualified))
      ((triggerTable m).ddl (targetOf qualified))).result = .ok [tablePiece qualified m] := by
  refine Diff.emit_eq_ok.mpr ⟨check_triggerTable qualified m, ?_⟩
  rw [ddl_triggerTable, if_neg]
  · rfl
  · intro hempty
    simp at hempty

theorem tableParts_triggerTable (h : IsName name) (qualified : Bool) :
    (Diff.tableParts (triggerPair qualified (String.ofList name)) (.object "public" .table "t")
      (triggerCatalog (String.ofList name)) (triggerTable (String.ofList name))).result =
        .ok [triggerPiece qualified (String.ofList name)] := by
  refine result_bind_eq_ok.mpr ⟨[], rfl, ?_⟩
  refine result_bind_eq_ok.mpr ⟨[], rfl, ?_⟩
  refine result_bind_eq_ok.mpr ⟨[triggerPiece qualified (String.ofList name)], ?_, ?_⟩
  · exact Diff.collect_cons_eq_ok.mpr ⟨_, [], emit_triggerCalling h qualified, rfl, rfl⟩
  · cases qualified <;> rfl

theorem tablePieces_triggerTable (h : IsName name) (qualified : Bool) :
    (Diff.tablePieces (triggerPair qualified (String.ofList name))
      (triggerCatalog (String.ofList name)) (.inSchema (triggerCatalog (String.ofList name)) "public")
      "t" (triggerTable (String.ofList name)) none).result =
        .ok (triggerPieces qualified (String.ofList name)) := by
  have hcreated : Diff.isCreated (triggerPair qualified (String.ofList name)) "t"
      (triggerTable (String.ofList name)) = true := rfl
  rw [Diff.tablePieces]
  simp only [hcreated, Bool.not_true, Bool.false_eq_true, if_false]
  refine result_bind_eq_ok.mpr ⟨_, emit_triggerTable qualified _, ?_⟩
  refine result_bind_eq_ok.mpr ⟨[], rfl, ?_⟩
  exact result_bind_eq_ok.mpr ⟨_, tableParts_triggerTable h qualified, rfl⟩

theorem tables_triggerCatalog (h : IsName name) (qualified : Bool) :
    (Diff.tables (triggerCatalog (String.ofList name))
      (triggerPair qualified (String.ofList name))).result =
        .ok (triggerPieces qualified (String.ofList name)) := by
  refine result_bind_eq_ok.mpr ⟨⟨["t"], _⟩, ?_, rfl⟩
  refine result_bind_eq_ok.mpr ⟨["t"], rfl, ?_⟩
  refine result_bind_eq_ok.mpr ⟨⟨["t"], _⟩, ?_, rfl⟩
  exact result_bind_eq_ok.mpr ⟨_, tablePieces_triggerTable h qualified, rfl⟩

/-- Only the passage over the tables finds something to write. -/
theorem pieces_triggerCatalog (h : IsName name) (qualified : Bool) :
    (Diff.pieces {} (triggerCatalog (String.ofList name)) (targetOf qualified)).result =
      .ok (triggerPieces qualified (String.ofList name)) := by
  refine result_bind_eq_ok.mpr ⟨[], rfl, ?_⟩
  refine result_bind_eq_ok.mpr ⟨[], by cases qualified <;> rfl, ?_⟩
  refine result_bind_eq_ok.mpr ⟨[], by cases qualified <;> rfl, ?_⟩
  refine result_bind_eq_ok.mpr ⟨[], by cases qualified <;> rfl, ?_⟩
  have htables := Diff.collect_cons_eq_ok.mpr
    ⟨_, [], tables_triggerCatalog h qualified, Diff.collect_nil, rfl⟩
  rw [List.append_nil] at htables
  refine result_bind_eq_ok.mpr ⟨triggerPieces qualified (String.ofList name), ?_, ?_⟩
  · cases qualified <;> exact htables
  · cases qualified <;> rfl

theorem dump_triggerCatalog (h : IsName name) (qualified : Bool) :
    ((triggerCatalog (String.ofList name)).dump (targetOf qualified) false).result =
      .ok (writtenScript qualified (String.ofList name)) := by
  refine result_bind_eq_ok.mpr ⟨_, pieces_triggerCatalog h qualified, ?_⟩
  have htext : scriptText false (triggerCatalog (String.ofList name)).metadata
      (triggerPieces qualified (String.ofList name)) =
        writtenScript qualified (String.ofList name) := by
    rw [← String.toList_inj]
    simp [scriptText, scriptHead, triggerPieces, Piece.block, tablePiece, triggerPiece,
      writtenScript, writtenStart]
  rw [renderPieces_eq, htext]
  rfl

end

/-! ## Reading and writing it -/

theorem redumped_triggerScript {name : List Char} (h : IsName name) (qualified : Bool) :
    redumped (targetOf qualified) (triggerScript (String.ofList name)) =
      .ok (writtenScript qualified (clipName name)) := by
  have hne : name ≠ [] := by
    rintro rfl
    exact absurd h.1 (by decide)
  have hstatements := statements_triggerScript hne (h.not_mem (by decide)) (h.not_mem (by decide))
  rw [redumped, Catalog.ofSql_of_ok hstatements]
  show Except.bind (Effect.catalogOf _ _).result _ = _
  rw [catalogOf_triggerStatement]
  exact dump_triggerCatalog h.clip qualified

/-- The name in lower case, as a bare name is read. -/
def folded (name : String) : String :=
  String.ofList (name.toList.map Char.toLower)

/-- A name that was clipped is short enough in lower case as well. -/
theorem clipName_lower_clip (name : List Char) :
    clipName ((clip nameBytes name).map Char.toLower) = folded (clipName name) := by
  rw [clipName, clip_map utf8Size_toLower, clip_clip, folded, clipName, String.toList_ofList]

section

variable {name : List Char} (h : IsName name) (qualified : Bool)
include h

theorem redumped_writtenScript (hfunction : isFunctionName (folded (clipName name))) :
    redumped (targetOf qualified) (writtenScript qualified (clipName name)) =
      .ok (writtenScript qualified (folded (clipName name))) := by
  rw [← clipName_lower_clip] at hfunction ⊢
  rw [redumped, clipName,
    Catalog.ofSql_of_ok (statements_writtenScript h.clip qualified hfunction)]
  show Except.bind (Effect.catalogOf _ _).result _ = _
  rw [catalogOf_triggerStatement]
  exact dump_triggerCatalog h.clip.lower.clip qualified

theorem redumped_writtenScript_refused
    (hfunction : isFunctionName (folded (clipName name)) = false) :
    ∃ fault, redumped (targetOf qualified) (writtenScript qualified (clipName name)) =
      .error fault := by
  rw [← clipName_lower_clip] at hfunction
  obtain ⟨flaw, hflaw⟩ := statements_writtenScript_refused h.clip qualified hfunction
  refine ⟨.sql flaw, ?_⟩
  rw [redumped, clipName, Catalog.ofSql_of_error hflaw]
  rfl

end

/-- A trigger is written whatever its function is called. What is written is read again if and only if
the name in lower case is a word that can name a function, and is then written again just as it is if
and only if the name is in lower case already. -/
theorem redumped_trigger_iff {name : String} (h : IsName name.toList) {target : Option String}
    (htarget : target = none ∨ target = some "public") :
    ∃ first, redumped target (triggerScript name) = .ok first ∧
      ((∃ second, redumped target first = .ok second) ↔
        isFunctionName (folded (clipName name.toList))) ∧
      (redumped target first = .ok first ↔
        isFunctionName (folded (clipName name.toList)) ∧
          folded (clipName name.toList) = clipName name.toList) := by
  obtain ⟨qualified, rfl⟩ : ∃ qualified, target = targetOf qualified := by
    obtain rfl | rfl := htarget
    · exact ⟨true, rfl⟩
    · exact ⟨false, rfl⟩
  have hfirst := redumped_triggerScript h qualified
  rw [String.ofList_toList] at hfirst
  refine ⟨_, hfirst, ?_⟩
  cases hfunction : isFunctionName (folded (clipName name.toList)) with
  | false =>
    obtain ⟨fault, hfault⟩ := redumped_writtenScript_refused h qualified hfunction
    simp [hfault]
  | true =>
    rw [redumped_writtenScript h qualified hfunction]
    simp [writtenScript_inj]

/-- The name of a function is lost in a script that is read again. -/
theorem redumped_trigger_renamed :
    IsName "Audit".toList ∧
      ∃ first second, redumped none (triggerScript "Audit") = .ok first ∧
        redumped none first = .ok second ∧ second ≠ first := by
  have hname : IsName "Audit".toList := ⟨by decide, by decide⟩
  obtain ⟨first, hfirst, haccepted, hsame⟩ := redumped_trigger_iff hname (.inl rfl)
  obtain ⟨second, hsecond⟩ := haccepted.mpr (by decide +kernel)
  refine ⟨hname, first, second, hfirst, hsecond, ?_⟩
  rintro rfl
  exact absurd (hsame.mp hsecond).2 (by decide +kernel)

end SchemaScript
