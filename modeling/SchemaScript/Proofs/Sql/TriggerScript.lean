import SchemaScript.Proofs.Sql.Reading

/-!
# Scripts with one trigger

A script that creates a table and a trigger on it, and the script that is written for what it
describes. Whatever the trigger's function is called, the first script is read; the second one is
read only if the name, which stands there bare, folds to a word that can name a function.
-/

namespace SchemaScript.Sql

/-! ## Texts and their tokens -/

def scriptStart : String :=
  "create table t (a int);create trigger f before insert on t execute function \""

/-- A trigger that calls a function whose name stands between quotes. -/
def triggerScript (function : String) : String :=
  scriptStart ++ function ++ "\"()"

/-- A reference to the table, with its schema or without it. -/
def tableText : Bool → String
  | true => "public.t"
  | false => "t"

/-- What is written of the table, and of the trigger up to the name of its function. -/
def writtenStart (qualified : Bool) : String :=
  "CREATE TABLE " ++ tableText qualified ++
    " (\n    a integer\n);\n\nCREATE TRIGGER f BEFORE INSERT ON " ++ tableText qualified ++
    " FOR EACH STATEMENT EXECUTE FUNCTION "

def writtenScript (qualified : Bool) (function : String) : String :=
  writtenStart qualified ++ function ++ "();\n"

theorem writtenScript_inj {qualified : Bool} {m n : String} :
    writtenScript qualified m = writtenScript qualified n ↔ m = n := by
  rw [← String.toList_inj, ← String.toList_inj, writtenScript, writtenScript]
  simp

def scriptTokens (function : Token) : List Token :=
  [.word "create", .word "table", .word "t", .symbol "(", .word "a", .word "int", .symbol ")",
    .symbol ";", .word "create", .word "trigger", .word "f", .word "before", .word "insert", .word "on",
    .word "t", .word "execute", .word "function", function, .symbol "(", .symbol ")"]

def tablePath : Bool → List Token
  | true => [.word "public", .symbol ".", .word "t"]
  | false => [.word "t"]

def tableTokens (qualified : Bool) : List Token :=
  [.word "create", .word "table"] ++ tablePath qualified ++
    [.symbol "(", .word "a", .word "integer", .symbol ")", .symbol ";"]

def triggerTokens (qualified : Bool) : List Token :=
  [.word "create", .word "trigger", .word "f", .word "before", .word "insert", .word "on"] ++
    tablePath qualified ++ [.word "for", .word "each", .word "statement"]

def callTokens (function : Token) : List Token :=
  [.word "execute", .word "function", function, .symbol "(", .symbol ")", .symbol ";"]

def writtenTokens (qualified : Bool) (function : Token) : List Token :=
  tableTokens qualified ++ (triggerTokens qualified ++ callTokens function)

theorem scans_triggerScript {name : List Char} (hne : name ≠ []) (h : '"' ∉ name) :
    Scans (triggerScript (String.ofList name)).toList
      (scriptTokens (.quotedName (clipName name))) := by
  have hstart (rest : List Char) : frontWords 17 (scriptStart.toList ++ rest) =
      some ((scriptTokens (.symbol "")).take 17, ' ' :: '"' :: rest) := rfl
  rw [triggerScript, String.toList_append, String.toList_append, String.toList_ofList,
    List.append_assoc]
  refine scans_frontWords (hstart _) (scans_cons (firstWord_quotedName hne (by decide) h) ?_)
  exact scans_cons rfl (scans_cons rfl (scans_nil rfl))

set_option maxRecDepth 1000 in
theorem scans_writtenScript {name : List Char} (h : IsName name) (qualified : Bool) :
    Scans (writtenScript qualified (String.ofList name)).toList
      (writtenTokens qualified (.word (clipName (name.map Char.toLower)))) := by
  -- The blank in front of the name is where both texts and both lists of tokens part.
  have hstart (rest : List Char) :
      ∃ n, frontWords n ((writtenStart qualified).toList ++ rest) =
        some (tableTokens qualified ++ triggerTokens qualified ++ [.word "execute", .word "function"],
          ' ' :: rest) := by
    cases qualified
    · exact ⟨20, rfl⟩
    · exact ⟨24, rfl⟩
  have hend : Scans ['(', ')', ';', '\n'] [.symbol "(", .symbol ")", .symbol ";"] :=
    scans_cons rfl (scans_cons rfl (scans_cons rfl (scans_nil rfl)))
  rw [writtenScript, String.toList_append, String.toList_append, String.toList_ofList,
    List.append_assoc]
  obtain ⟨n, hn⟩ := hstart (name ++ "();\n".toList)
  have hscans := scans_frontWords hn (scans_cons (firstWord_bareName h rfl) hend)
  simpa only [writtenTokens, callTokens, List.append_assoc, List.cons_append, List.nil_append]
    using hscans

/-! ## Their lexemes -/

theorem exists_scan_triggerScript {name : List Char} (hne : name ≠ []) (h : '"' ∉ name)
    (hzero : '\x00' ∉ name) : ∃ places, scan (triggerScript (String.ofList name)) =
      lexemesAt places (scriptTokens (.quotedName (clipName name))) := by
  have hlength : 20 ≤ scriptStart.toList.length := by decide
  obtain ⟨places, hscan⟩ := scan_of_scans (scans_triggerScript hne h)
    (by simpa [triggerScript] using ⟨by decide, hzero⟩)
    (by simp [triggerScript, scriptTokens]; omega)
  exact ⟨places, hscan⟩

theorem exists_scan_writtenScript {name : List Char} (h : IsName name) (qualified : Bool) :
    ∃ places, scan (writtenScript qualified (String.ofList name)) =
      lexemesAt places (writtenTokens qualified (.word (clipName (name.map Char.toLower)))) := by
  have hstart : 30 ≤ (writtenStart qualified).toList.length ∧
      '\x00' ∉ (writtenStart qualified).toList := by
    cases qualified <;> decide +kernel
  have hzero : '\x00' ∉ name := h.not_mem (by decide)
  have htokens (m : String) : (writtenTokens qualified (.word m)).length ≤ 30 := by
    cases qualified <;> exact Nat.le_of_ble_eq_true rfl
  obtain ⟨places, hscan⟩ := scan_of_scans (scans_writtenScript h qualified)
    (by simpa [writtenScript] using ⟨hstart.2, hzero⟩)
    (Nat.le_trans (htokens _) (by simp [writtenScript]; omega))
  refine ⟨places, ?_⟩
  rw [hscan]
  cases qualified <;> rfl

/-! ## Their statements -/

def tableRelation : Bool → RelationName
  | true => { schema := some "public", name := "t" }
  | false => { name := "t" }

def tableStatement (qualified : Bool) : Statement :=
  .createTable {
    relation := tableRelation qualified
    elements := [.column { name := "a", type := .ofKeyword "int4" }] }

/-- The trigger that makes this call. -/
def callStatement (qualified : Bool) (call : Reader.TriggerCall) : Statement :=
  .createTrigger {
    name := "f"
    table := tableRelation qualified
    timing := .before
    events := [.insert]
    function := call.function
    arguments := call.arguments
    condition := call.condition }

/-- The call of a function without arguments, on every occasion. -/
def bareCall (function : String) : Reader.TriggerCall :=
  { condition := none, function := [function], arguments := [] }

def triggerStatement (qualified : Bool) (function : String) : Statement :=
  callStatement qualified (bareCall function)

namespace Reader

section

variable (r : Rules) (m : String) (places : Nat → Nat × String) (qualified : Bool)

/-- A quoted name is a function's name whatever it is. -/
theorem script_triggerScript : script r (lexemesAt places (scriptTokens (.quotedName m))) =
    .ok ([tableStatement false, triggerStatement false m], []) := by
  rfl

theorem nextStatement_table (rest : List Token) :
    ∃ places', nextStatement r [] (lexemesAt places (tableTokens qualified ++ rest)) =
      .ok (some [tableStatement qualified], lexemesAt places' rest) := by
  cases qualified <;> exact ⟨_, rfl⟩

/-- Up to the call, a trigger is read whatever follows. -/
theorem createTrigger_call (rest : List Token) :
    ∃ places', createTrigger r (lexemesAt places ((triggerTokens qualified).drop 2 ++ rest)) =
      (triggerCall r (lexemesAt places' rest)).bind fun (call, left) =>
        .ok (callStatement qualified call, left) := by
  cases qualified <;> exact ⟨_, rfl⟩

theorem statement_createTrigger (rest : List Token) :
    statement r (lexemesAt places (.word "create" :: .word "trigger" :: rest)) =
      createTrigger r (lexemesAt (fun i => places (i + 2)) rest) := by
  refine bind_ok rfl (bind_ok rfl (bind_ok rfl (bind_ok rfl (bind_ok rfl ?_))))
  cases h : createTrigger r (lexemesAt (fun i => places (i + 2)) rest) with
  | ok found => exact bind_ok (bind_ok rfl (bind_ok h rfl)) rfl
  | error flaw => exact bind_error (bind_ok rfl (bind_error h))

theorem outerStatement_trigger (rest : List Token) :
    ∃ places', outerStatement r (lexemesAt places (triggerTokens qualified ++ rest)) =
      (triggerCall r (lexemesAt places' rest)).bind fun (call, left) =>
        .ok (callStatement qualified call, left) := by
  obtain ⟨places', hcall⟩ := createTrigger_call r (fun i => places (i + 2)) qualified rest
  refine ⟨places', bind_ok rfl ?_⟩
  exact (statement_createTrigger r places _).trans hcall

end

variable {r : Rules} {m : String} (places : Nat → Nat × String) (qualified : Bool)

section

variable (h : isFunctionName m)
include h

theorem triggerCall_word : triggerCall r (lexemesAt places (callTokens (.word m))) =
    .ok (bareCall m, lexemesAt (fun i => places (i + 5)) [.symbol ";"]) := by
  refine bind_ok rfl (bind_ok rfl (bind_ok rfl ?_))
  exact bind_ok (routinePath_word h) rfl

theorem nextStatement_trigger (found : List Statement) :
    nextStatement r found (lexemesAt places (triggerTokens qualified ++ callTokens (.word m))) =
      .ok (some (triggerStatement qualified m :: found), []) := by
  obtain ⟨places', htrigger⟩ :=
    outerStatement_trigger r places qualified (callTokens (.word m))
  rw [triggerCall_word places' h] at htrigger
  refine test_false rfl (bind_ok rfl ?_)
  exact bind_ok htrigger rfl

theorem script_written : script r (lexemesAt places (writtenTokens qualified (.word m))) =
    .ok ([tableStatement qualified, triggerStatement qualified m], []) := by
  obtain ⟨places', htable⟩ := nextStatement_table r places qualified
    (triggerTokens qualified ++ callTokens (.word m))
  have htrigger := nextStatement_trigger (r := r) places' qualified h [tableStatement qualified]
  have hall : repeated (nextStatement r) [] (lexemesAt places (writtenTokens qualified (.word m))) =
      .ok ([triggerStatement qualified m, tableStatement qualified], []) := by
    refine repeatUpTo_some htable ?_
    cases qualified <;> exact repeatUpTo_some htrigger rfl
  exact bind_ok hall rfl

end

section

variable (h : isFunctionName m = false)
include h

theorem triggerCall_refused :
    ∃ flaw, triggerCall r (lexemesAt places (callTokens (.word m))) = .error flaw := by
  obtain ⟨flaw, hflaw⟩ := routinePath_refused h
  refine ⟨flaw, bind_ok rfl (bind_ok rfl (bind_ok rfl ?_))⟩
  exact bind_error hflaw

theorem nextStatement_trigger_refused (found : List Statement) :
    ∃ flaw, nextStatement r found
      (lexemesAt places (triggerTokens qualified ++ callTokens (.word m))) = .error flaw := by
  obtain ⟨places', htrigger⟩ :=
    outerStatement_trigger r places qualified (callTokens (.word m))
  obtain ⟨flaw, hflaw⟩ := triggerCall_refused (r := r) places' h
  rw [hflaw] at htrigger
  refine ⟨flaw, test_false rfl (bind_ok rfl ?_)⟩
  exact bind_error htrigger

theorem script_written_refused :
    ∃ flaw, script r (lexemesAt places (writtenTokens qualified (.word m))) = .error flaw := by
  obtain ⟨places', htable⟩ := nextStatement_table r places qualified
    (triggerTokens qualified ++ callTokens (.word m))
  obtain ⟨flaw, hflaw⟩ :=
    nextStatement_trigger_refused (r := r) places' qualified h [tableStatement qualified]
  have hall : repeated (nextStatement r) [] (lexemesAt places (writtenTokens qualified (.word m))) =
      .error flaw := by
    refine repeatUpTo_some htable ?_
    cases qualified <;> exact bind_error hflaw
  exact ⟨flaw, bind_error hall⟩

end

end Reader

theorem statements_triggerScript {name : List Char} (hne : name ≠ []) (h : '"' ∉ name)
    (hzero : '\x00' ∉ name) : statements (triggerScript (String.ofList name)) =
      .ok [tableStatement false, triggerStatement false (clipName name)] := by
  obtain ⟨places, hscan⟩ := exists_scan_triggerScript hne h hzero
  rw [statements, hscan]
  show Except.bind (Reader.script _ _) _ = _
  rw [Reader.script_triggerScript]
  rfl

theorem statements_writtenScript {name : List Char} (h : IsName name) (qualified : Bool)
    (hfunction : isFunctionName (clipName (name.map Char.toLower))) :
    statements (writtenScript qualified (String.ofList name)) =
      .ok [tableStatement qualified,
        triggerStatement qualified (clipName (name.map Char.toLower))] := by
  obtain ⟨places, hscan⟩ := exists_scan_writtenScript h qualified
  rw [statements, hscan]
  show Except.bind (Reader.script _ _) _ = _
  rw [Reader.script_written places qualified hfunction]
  rfl

theorem statements_writtenScript_refused {name : List Char} (h : IsName name) (qualified : Bool)
    (hfunction : isFunctionName (clipName (name.map Char.toLower)) = false) :
    ∃ flaw, statements (writtenScript qualified (String.ofList name)) = .error flaw := by
  obtain ⟨places, hscan⟩ := exists_scan_writtenScript h qualified
  obtain ⟨flaw, hflaw⟩ := Reader.script_written_refused places qualified hfunction
  refine ⟨flaw, ?_⟩
  rw [statements, hscan]
  show Except.bind (Reader.script _ _) _ = _
  rw [hflaw]
  rfl

end SchemaScript.Sql
