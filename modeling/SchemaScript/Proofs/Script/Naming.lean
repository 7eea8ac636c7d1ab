import SchemaScript.Proofs.Effect.Naming
import SchemaScript.Proofs.Script.Commenting

/-!
# Names as they are written

The names of tables and columns are quoted where they have to be, and read back. Those inside stored texts, such
as partition keys, trigger functions, roles, parameters and types, are written as they are; they are read back
only if they are their own spelling (`StandsBare`).
-/

namespace SchemaScript

open Sql (isBreak ReadsName IsOwnSpelling IsKept)
open Ddl (path)

/-! ## Words in a text -/

/-- The last character is one behind which a word begins. -/
def EndsLead (text : String) : Prop :=
  ∃ front e, text.toList = front ++ [e] ∧ e ∈ [' ', '\n', '(', '.']

/-- The first character ends a word in front of it. -/
def BeginsBreak (text : String) : Prop :=
  ∃ d rest, text.toList = d :: rest ∧ isBreak d

/-- The text stands there as a word: it neither goes on from what is in front of it nor is gone on with. -/
def Stands (word text : String) : Prop :=
  ∃ front rest, text = front ++ word ++ rest ∧ EndsLead front ∧ BeginsBreak rest

/-- Words end before what stands between them, and begin behind it. -/
def IsGap (gap : String) : Prop :=
  BeginsBreak gap ∧ EndsLead gap

section

variable {v w front rest text a b gap : String} {words : List String}

theorem EndsLead.behind (h : EndsLead b) (a : String) : EndsLead (a ++ b) := by
  obtain ⟨front, e, hb, he⟩ := h
  exact ⟨a.toList ++ front, e, by rw [String.toList_append, hb, List.append_assoc], he⟩

theorem BeginsBreak.before (h : BeginsBreak a) (b : String) : BeginsBreak (a ++ b) := by
  obtain ⟨d, rest, ha, hd⟩ := h
  exact ⟨d, rest ++ b.toList, by rw [String.toList_append, ha, List.cons_append], hd⟩

/-- Nothing, or something that ends a word, in front of what ends one. -/
theorem BeginsBreak.behind (h : a = "" ∨ BeginsBreak a) (hb : BeginsBreak b) : BeginsBreak (a ++ b) := by
  obtain rfl | ha := h
  · rwa [String.empty_append]
  · exact ha.before b

theorem endsLead_open : EndsLead "(" := ⟨[], '(', rfl, by decide⟩

theorem endsLead_blank : EndsLead " " := ⟨[], ' ', rfl, by decide⟩

theorem endsLead_line : EndsLead "\n" := ⟨[], '\n', rfl, by decide⟩

theorem beginsBreak_open : BeginsBreak "(" := ⟨'(', [], rfl, rfl⟩

theorem beginsBreak_close : BeginsBreak ")" := ⟨')', [], rfl, rfl⟩

theorem beginsBreak_end : BeginsBreak ";" := ⟨';', [], rfl, rfl⟩

theorem beginsBreak_blank : BeginsBreak " " := ⟨' ', [], rfl, rfl⟩

theorem beginsBreak_line : BeginsBreak "\n" := ⟨'\n', [], rfl, rfl⟩

theorem isGap_blank : IsGap " " := ⟨beginsBreak_blank, endsLead_blank⟩

theorem isGap_comma : IsGap ", " := ⟨⟨',', [' '], rfl, rfl⟩, [','], ' ', rfl, by decide⟩

theorem isGap_point : IsGap "." := ⟨⟨'.', [], rfl, rfl⟩, [], '.', rfl, by decide⟩

theorem isGap_line : IsGap ",\n" := ⟨⟨',', ['\n'], rfl, rfl⟩, [','], '\n', rfl, by decide⟩

namespace Stands

theorem between (hfront : EndsLead front) (hrest : BeginsBreak rest) : Stands w (front ++ w ++ rest) :=
  ⟨front, rest, rfl, hfront, hrest⟩

theorem behind (h : Stands w b) (a : String) : Stands w (a ++ b) := by
  obtain ⟨front, rest, rfl, hfront, hrest⟩ := h
  exact ⟨a ++ front, rest, by simp only [String.append_assoc], hfront.behind a, hrest⟩

theorem before (h : Stands w a) (b : String) : Stands w (a ++ b) := by
  obtain ⟨front, rest, rfl, hfront, hrest⟩ := h
  exact ⟨front, rest ++ b, by simp only [String.append_assoc], hfront, hrest.before b⟩

theorem of_shows (h : Stands w a) (hshows : Ddl.Shows a text) : Stands w text := by
  obtain ⟨front, rest, rfl⟩ := hshows
  exact (h.behind front).before rest

theorem trans (h : Stands v text)
    (hw : ∀ front rest, EndsLead front → BeginsBreak rest → Stands w (front ++ v ++ rest)) : Stands w text := by
  obtain ⟨front, rest, rfl, hfront, hrest⟩ := h
  exact hw front rest hfront hrest

theorem regroup (h : Stands w (front ++ v ++ (a ++ rest))) : Stands w (front ++ (v ++ a) ++ rest) := by
  simpa only [String.append_assoc] using h

/-- Every word of a list stands in it. -/
theorem intercalate (hgap : IsGap gap) (hw : w ∈ words) (hfront : EndsLead front) (hrest : BeginsBreak rest) :
    Stands w (front ++ gap.intercalate words ++ rest) := by
  induction words generalizing front with
  | nil => contradiction
  | cons v words ih =>
    cases words with
    | nil =>
      obtain rfl := List.mem_singleton.mp hw
      rw [String.intercalate_singleton]
      exact between hfront hrest
    | cons next words =>
      rw [String.intercalate_cons_cons]
      rcases List.mem_cons.mp hw with rfl | hw
      · refine ⟨front, gap ++ gap.intercalate (next :: words) ++ rest, ?_, hfront, ?_⟩
        · simp only [String.append_assoc]
        · exact (hgap.1.before _).before rest
      · have hlater := ih hw (hgap.2.behind (front ++ v))
        simpa only [String.append_assoc] using hlater

end Stands

end

/-- The name stands in the text as it is. It is read back there exactly if it is its own spelling and a bare word
that may be a name. -/
def StandsBare (name text : String) : Prop :=
  ∃ front rest, text = front ++ name ++ rest ∧ EndsLead front ∧ BeginsBreak rest ∧ ∀ allowed,
    ReadsName allowed (name.toList ++ rest.toList) name rest.toList ↔ IsOwnSpelling name ∧ allowed name

/-- The name stands in the text, quoted where it has to be, and is read back there. -/
def StandsQuoted (name text : String) : Prop :=
  ∃ front rest, text = front ++ Sql.quoteName name ++ rest ∧ EndsLead front ∧ BeginsBreak rest ∧ ∀ allowed,
    IsKept name → (∀ w, Sql.isReserved w = false → allowed w) →
      ReadsName allowed ((Sql.quoteName name).toList ++ rest.toList) name rest.toList

theorem Stands.bare {name text : String} (h : Stands name text) : StandsBare name text := by
  obtain ⟨front, rest, htext, hfront, d, r, hrest, hd⟩ := h
  refine ⟨front, rest, htext, hfront, ⟨d, r, hrest, hd⟩, fun _ => ?_⟩
  rw [hrest]
  exact Sql.readsName_iff hd

theorem Stands.quoted {name text : String} (h : Stands (Sql.quoteName name) text) : StandsQuoted name text := by
  obtain ⟨front, rest, htext, hfront, d, r, hrest, hd⟩ := h
  refine ⟨front, rest, htext, hfront, ⟨d, r, hrest, hd⟩, fun _ hkept hallowed => ?_⟩
  rw [hrest]
  exact Sql.readsName_quoteName hkept hd hallowed

namespace Stands

variable {n w text : String} {names : List String}

theorem of_path (h : Stands (".".intercalate names) text) (hn : n ∈ names) : Stands n text :=
  h.trans fun _ _ hfront hrest => intercalate isGap_point hn hfront hrest

end Stands

theorem exists_intercalate_cons (gap first : String) (others : List String) :
    ∃ rest, gap.intercalate (first :: others) = first ++ rest := by
  cases others with
  | nil => exact ⟨"", by rw [String.intercalate_singleton, String.append_empty]⟩
  | cons next others =>
    exact ⟨gap ++ gap.intercalate (next :: others), by rw [String.intercalate_cons_cons, String.append_assoc]⟩

theorem intercalate_ne_empty {gap w : String} {words : List String} (hw : w ∈ words) (hne : w ≠ "") :
    gap.intercalate words ≠ "" := by
  intro hempty
  obtain ⟨front, rest, h⟩ := (Ddl.shows_self w).intercalate hw gap
  rw [hempty] at h
  have hlength := congrArg (·.toList.length) h
  simp only [String.toList_append, List.length_append, String.toList_empty, List.length_nil] at hlength
  have hpos : w.toList ≠ [] := by simpa using hne
  have := List.length_pos_iff.mpr hpos
  omega

/-! ## Tables -/

namespace Table

variable {t : Table} {target : Option String} {c : Column} {k n line type : String}

theorem exists_ddl_eq (h : t.ddl target ≠ "") : t.isComplete ∧ ∃ comments, t.ddl target =
    "CREATE TABLE " ++ Ddl.reference t.schema t.name target ++ body (t.lines target) ++ t.partitionClause ++ ";" ++
      comments := by
  have hcomplete : t.isComplete := by
    by_contra hmissing
    simp [ddl, hmissing] at h
  refine ⟨hcomplete, ?_⟩
  simp only [ddl, hcomplete, Bool.not_true, Bool.false_eq_true, if_false]
  exact exists_intercalate_cons _ _ _

theorem stands_name (h : t.ddl target ≠ "") (hn : n ∈ path t.schema t.name target) :
    Stands (Sql.quoteName n) (t.ddl target) := by
  obtain ⟨hcomplete, comments, htext⟩ := exists_ddl_eq h
  have hbody : BeginsBreak (body (t.lines target)) := by
    unfold body
    split
    · exact beginsBreak_blank.before "()"
    · exact ((beginsBreak_blank.before "(\n").before _).before "\n)"
  have hreference := Ddl.reference_eq_pathText (Bool.and_eq_true_iff.mp hcomplete).1 t.schema target
  rw [htext, hreference]
  have hpath : Stands (Sql.pathText (path t.schema t.name target))
      ("CREATE TABLE " ++ Sql.pathText (path t.schema t.name target) ++ body (t.lines target)) :=
    Stands.between (endsLead_blank.behind "CREATE TABLE") hbody
  exact (((hpath.of_path (List.mem_map_of_mem hn)).before _).before ";").before comments

theorem stands_key {p : Sql.Partitioning} (h : t.ddl target ≠ "")
    (hpartitioned : (t.isPartitioned, t.partitionStrategy, t.partitionKey) =
      ((true : Field Bool), (p.strategy.text : Field String), (Sql.commaList p.keys : Field String)))
    (hk : k ∈ p.keys) (hne : k ≠ "") : Stands k (t.ddl target) := by
  obtain ⟨-, comments, htext⟩ := exists_ddl_eq h
  obtain ⟨hgiven, hrest⟩ := Prod.mk.inj hpartitioned
  obtain ⟨hstrategy, hkey⟩ := Prod.mk.inj hrest
  have hkeys : (Sql.commaList p.keys : Field String).given = some (Sql.commaList p.keys) := by
    rw [Field.given_text, if_neg (show Sql.commaList p.keys ≠ "" from intercalate_ne_empty hk hne)]
  have hsome : (p.strategy.text : Field String).given = some p.strategy.text := by
    cases p.strategy <;> rfl
  have htrue : (true : Field Bool).isGiven = true := rfl
  have hclause : t.partitionClause =
      "\nPARTITION BY " ++ Text.upper p.strategy.text ++ " (" ++ Sql.commaList p.keys ++ ")" := by
    rw [partitionClause, hgiven, hstrategy, hkey, hkeys, hsome, htrue]
  have hstands : Stands k t.partitionClause := by
    rw [hclause]
    exact Stands.intercalate isGap_comma hk ((endsLead_open.behind " ").behind _) beginsBreak_close
  rw [htext]
  exact ((hstands.behind _).before ";").before comments

theorem stands_line (h : t.ddl target ≠ "") (hline : line ∈ t.lines target) : Stands line (t.ddl target) := by
  obtain ⟨-, comments, htext⟩ := exists_ddl_eq h
  have hsome : (t.lines target).isEmpty = false := List.isEmpty_eq_false_iff.mpr (List.ne_nil_of_mem hline)
  have hindented : Stands ("    " ++ line) (body (t.lines target)) := by
    rw [body, hsome]
    exact Stands.intercalate isGap_line (List.mem_map_of_mem hline) ⟨[' ', '('], '\n', rfl, by decide⟩
      (beginsBreak_line.before ")")
  have hbody : Stands line (body (t.lines target)) := by
    refine hindented.trans fun front rest hfront hrest => ?_
    rw [← String.append_assoc]
    exact Stands.between ((endsLead_blank.behind "   ").behind front) hrest
  rw [htext]
  exact (((hbody.behind _).before _).before ";").before comments

theorem stands_column (h : t.ddl target ≠ "") (hc : c ∈ t.columns) (hname : c.name = (n : Field String))
    (htype : c.typeText? target = some type) :
    Stands (Sql.quoteName n) (t.ddl target) ∧ Stands type (t.ddl target) := by
  have htext : t.columnText? target c =
      some (" ".intercalate ([Sql.quoteName n, type] ++ t.columnOptions target c)) := by
    rw [columnText?, hname, Field.text?_text, htype]
  have hline : " ".intercalate ([Sql.quoteName n, type] ++ t.columnOptions target c) ∈ t.lines target :=
    List.mem_append_left _ (List.mem_filterMap.mpr ⟨c, mem_byPosition.mpr hc, htext⟩)
  have hword {w : String} (hw : w ∈ [Sql.quoteName n, type]) : Stands w (t.ddl target) :=
    (stands_line h hline).trans fun _ _ hfront hrest =>
      Stands.intercalate isGap_blank (List.mem_append_left _ hw) hfront hrest
  exact ⟨hword (by simp), hword (by simp)⟩

end Table

theorem Column.exists_typeText? {c : Column} (h : c.dataType.isGiven) (target : Option String) :
    ∃ type, c.typeText? target = some type := by
  have hbase : ∃ base, c.declaredType.map Sql.canonicalType = some base := by
    have hdata := Ddl.text?_of_isGiven h
    rw [declaredType]
    split
    · next huser =>
      have hgiven := (Bool.and_eq_true_iff.mp huser).2
      exact ⟨_, by rw [Ddl.text?_of_isGiven hgiven, Option.map_some]⟩
    · exact ⟨_, by rw [hdata, Option.map_some]⟩
  obtain ⟨base, hbase⟩ := hbase
  have hdrop (r : String) : ∃ type, Sql.dropSchema (some r) target = some type := by
    unfold Sql.dropSchema
    split
    · split
      · exact ⟨_, rfl⟩
      · split <;> exact ⟨_, rfl⟩
    · exact ⟨_, rfl⟩
  unfold typeText?
  rw [hbase]
  dsimp only
  split
  · exact ⟨_, rfl⟩
  · split
    · exact ⟨_, rfl⟩
    · exact ⟨_, rfl⟩
    · split <;> exact ⟨_, rfl⟩
    · exact hdrop base

/-- A type that a user defined is shown by its name alone. -/
theorem Column.typeText?_of_fixedPart {c : Column} {name : Field String} {stored : String}
    (h : Effect.fixedPart c =
      { name, position := c.position, dataType := "USER-DEFINED", userType := (stored : Field String) }) (hne : stored ≠ "") (target : Option String) :
    c.typeText? target = Sql.dropSchema (some (Sql.canonicalType stored)) target := by
  have hdata : c.dataType = ("USER-DEFINED" : Field String) := congrArg Column.dataType h
  have huser : c.userType = (stored : Field String) := congrArg Column.userType h
  have hlength : c.maxLength = .absent := congrArg Column.maxLength h
  have hprecision : c.precision = .absent := congrArg Column.precision h
  have hserial : c.isSerial = false := by
    have hnone : (Sql.serialKeyword? (("USER-DEFINED" : Field String).givenOr "")).isSome = false := by decide
    unfold isSerial
    split
    · rw [hdata, hnone, Bool.and_false]
    · rfl
  have hdeclared : c.declaredType = some stored := by
    have hgiven : (stored : Field String).isGiven := by simp [Field.isGiven, Json.isNothing, hne]
    rw [declaredType, hdata, huser, hgiven, Field.text?_text, Field.text?_text]
    rfl
  rw [typeText?, hserial, hdeclared, hlength, hprecision]
  dsimp only [Option.map_some]
  split
  · contradiction
  · split <;> first | contradiction | rfl

/-! ## Triggers and policies -/

theorem Trigger.stands_function {g : Trigger} {target : Option String} {stored behind n : String}
    {names : List String} (h : g.ddl target ≠ "") (hfunction : g.function = (stored : Field String))
    (hshown : Sql.dropSchema (some stored) target = some (".".intercalate names ++ behind))
    (hbehind : behind = "" ∨ BeginsBreak behind) (hn : n ∈ names) : Stands n (g.ddl target) := by
  have hcomplete : g.isComplete := by
    by_contra hmissing
    simp [ddl, hmissing] at h
  obtain ⟨tail, htail, hbreak⟩ : ∃ tail, functionText g.function.text? target = ".".intercalate names ++ tail ∧
      (tail = "" ∨ BeginsBreak tail) := by
    rw [functionText, hfunction, Field.text?_text, hshown, Text.spelled_some]
    split
    · exact ⟨behind, rfl, hbehind⟩
    · exact ⟨behind ++ "()", String.append_assoc, .inr (.behind hbehind (beginsBreak_open.before ")"))⟩
  simp only [ddl, hcomplete, Bool.not_true, Bool.false_eq_true, if_false, htail]
  exact (Stands.intercalate isGap_point hn ((endsLead_blank.behind " EXECUTE FUNCTION").behind _)
    (.behind hbreak beginsBreak_end)).regroup.before _

theorem Policy.stands_role {p : Policy} {target : Option String} {n : String} {roles : List String}
    (h : p.ddl target ≠ "") (hroles : p.roles = (roles : Field (List String))) (hn : n ∈ roles) :
    Stands n (p.ddl target) := by
  have hcomplete : p.isComplete := by
    by_contra hmissing
    simp [ddl, hmissing] at h
  have hgiven : p.roles.isGiven := by
    rw [hroles]
    cases roles with
    | nil => contradiction
    | cons => rfl
  have htexts : p.roles.texts = roles := by
    rw [hroles]
    show (roles.map Json.text).map Json.plain = roles
    rw [List.map_map]
    exact List.map_id roles
  obtain ⟨front, visible, allowed, htext, hvisible, hallowed⟩ : ∃ front visible allowed, p.ddl target =
      front ++ (" TO " ++ ", ".intercalate roles) ++ visible ++ allowed ++ ";" ∧
        (visible = "" ∨ BeginsBreak visible) ∧ (allowed = "" ∨ BeginsBreak allowed) := by
    simp only [ddl, hcomplete, hgiven, htexts, Bool.not_true, Bool.false_eq_true, if_false, if_true]
    refine ⟨_, _, _, rfl, ?_, ?_⟩
    · split
      · exact .inr ((beginsBreak_blank.before "USING ").before _)
      · exact .inl rfl
    · split
      · exact .inr ((beginsBreak_blank.before "WITH CHECK ").before _)
      · exact .inl rfl
  have hstands : Stands n (front ++ " TO " ++ ", ".intercalate roles ++ (visible ++ (allowed ++ ";"))) :=
    Stands.intercalate isGap_comma hn ((endsLead_blank.behind " TO").behind front)
      (.behind hvisible (.behind hallowed beginsBreak_end))
  rw [htext]
  simpa only [String.append_assoc] using hstands

/-! ## Routines -/

section

open Effect (parameterAt signatureOf)

variable {definition : Sql.RoutineDefinition} {parameter : Sql.ParameterDefinition} {n : String}
  {target : Option String}

theorem Parameter.exists_sql_eq (i : Nat) (hname : parameter.name = some n) (hne : n ≠ "") : ∃ words tail,
    (parameterAt i parameter).sql = " ".intercalate words ++ tail ∧ n ∈ words ∧ (tail = "" ∨ BeginsBreak tail) := by
  have hgiven : (parameterAt i parameter).name.given = some n := by
    show (parameter.name : Field String).given = some n
    rw [hname]
    exact (Field.given_text n).trans (if_neg hne)
  refine ⟨_, _, rfl, by simp [hgiven], ?_⟩
  split
  · exact .inr ((beginsBreak_blank.before "DEFAULT ").before _)
  · exact .inl rfl

theorem stands_parameter {front rest : String} (hparameter : parameter ∈ definition.parameters)
    (hname : parameter.name = some n) (hne : n ≠ "") (hfront : EndsLead front) (hrest : BeginsBreak rest)
    (arguments : Field String) :
    Stands n (front ++ Ddl.parameterList (signatureOf definition : Field String) arguments ++ rest) := by
  obtain ⟨i, hi, hparameter⟩ := List.mem_iff_getElem.mp hparameter
  obtain ⟨words, tail, hsql, hn, htail⟩ := Parameter.exists_sql_eq i hname hne
  have hmem : (parameterAt i parameter).sql ∈ (definition.parameters.mapIdx parameterAt).map (·.sql) :=
    List.mem_map_of_mem (List.mem_mapIdx.mpr ⟨i, hi, by rw [hparameter]⟩)
  have hwritten : (parameterAt i parameter).sql ≠ "" := by
    rw [hsql]
    intro hempty
    exact intercalate_ne_empty hn hne (String.append_eq_empty_iff.mp hempty).1
  have hlist : Ddl.parameterList (signatureOf definition : Field String) arguments = signatureOf definition := by
    have hsignature : signatureOf definition ≠ "" := intercalate_ne_empty hmem hwritten
    rw [Ddl.parameterList, Field.givenOr, Field.given_text, if_neg hsignature, Option.getD_some]
  rw [hlist]
  refine (Stands.intercalate isGap_comma hmem hfront hrest).trans fun front rest hfront hrest => ?_
  rw [hsql]
  exact (Stands.intercalate isGap_blank hn hfront (.behind htail hrest)).regroup

theorem StoredFunction.exists_ddl_eq {f : StoredFunction} (h : f.ddl target ≠ "") : ∃ others comment,
    f.ddl target = "\n".intercalate (("CREATE OR REPLACE FUNCTION " ++ Ddl.reference f.schema f.name target ++ "(" ++
      Ddl.parameterList f.signature f.arguments ++ ")") :: (match f.returnType.given with
        | some r => ["RETURNS " ++ Text.spelled (Sql.dropSchema (some r) target)]
        | none => []) ++ others) ++ comment := by
  have hcomplete : f.isComplete := by
    by_contra hmissing
    simp [ddl, hmissing] at h
  simp only [ddl, hcomplete, Bool.not_true, Bool.false_eq_true, if_false, List.append_assoc, List.singleton_append]
  exact ⟨_, _, rfl⟩

theorem StoredFunction.stands_parameter {f : StoredFunction} (h : f.ddl target ≠ "")
    (hsignature : f.signature = (signatureOf definition : Field String))
    (hparameter : parameter ∈ definition.parameters) (hname : parameter.name = some n) (hne : n ≠ "") :
    Stands n (f.ddl target) := by
  obtain ⟨others, comment, htext⟩ := exists_ddl_eq h
  have hfirst := SchemaScript.stands_parameter hparameter hname hne
    (endsLead_open.behind ("CREATE OR REPLACE FUNCTION " ++ Ddl.reference f.schema f.name target))
    beginsBreak_close f.arguments
  rw [← hsignature] at hfirst
  rw [htext]
  exact (hfirst.of_shows ((Ddl.shows_self _).intercalate List.mem_cons_self "\n")).before comment

theorem StoredFunction.stands_column {f : StoredFunction} {r : String} {column : String × Sql.WrittenType}
    (h : f.ddl target ≠ "") (hresult : f.returnType = (Effect.resultType definition : Field String))
    (hcolumn : column ∈ definition.resultColumns) (hr : Effect.resultType definition = some r)
    (hshown : Sql.dropSchema (some r) target = some r) : Stands column.1 (f.ddl target) := by
  obtain ⟨others, comment, htext⟩ := exists_ddl_eq h
  have htable : r = "TABLE" ++ ("(" ++ ", ".intercalate (definition.resultColumns.map fun column =>
      column.1 ++ " " ++ column.2.text) ++ ")") := by
    cases hcolumns : definition.resultColumns with
    | nil => simp [hcolumns] at hcolumn
    | cons first others =>
      rw [Effect.resultType, hcolumns] at hr
      exact (Option.some.inj hr).symm
  have hgiven : f.returnType.given = some r := by
    rw [hresult, hr]
    refine (Field.given_text r).trans (if_neg ?_)
    rw [htable]
    simp
  have hlist : Stands column.1 r := by
    rw [htable]
    refine Stands.behind ?_ "TABLE"
    refine (Stands.intercalate isGap_comma (List.mem_map_of_mem hcolumn) endsLead_open beginsBreak_close).trans
      fun front rest hfront hrest => ?_
    exact Stands.regroup (.regroup (.between hfront (beginsBreak_blank.before _)))
  have hline : Stands column.1 ("RETURNS " ++ Text.spelled (Sql.dropSchema (some r) target)) := by
    rw [hshown]
    exact hlist.behind "RETURNS "
  rw [htext, hgiven]
  exact (hline.of_shows ((Ddl.shows_self _).intercalate (by simp) "\n")).before comment

theorem Procedure.stands_parameter {p : Procedure} (h : p.ddl target ≠ "")
    (hsignature : p.signature = (signatureOf definition : Field String))
    (hparameter : parameter ∈ definition.parameters) (hname : parameter.name = some n) (hne : n ≠ "") :
    Stands n (p.ddl target) := by
  have hcomplete : p.isComplete := by
    by_contra hmissing
    simp [ddl, hmissing] at h
  have hfirst := SchemaScript.stands_parameter hparameter hname hne
    (endsLead_open.behind ("CREATE OR REPLACE PROCEDURE " ++ Ddl.reference p.schema p.name target))
    (beginsBreak_close.before "\nLANGUAGE ") p.arguments
  rw [← hsignature] at hfirst
  simp only [ddl, hcomplete, Bool.not_true, Bool.false_eq_true, if_false]
  exact (((((hfirst.before _).before _).before _).before _).before _)

end

theorem Aggregate.supportText_eq (name : Field String) (schema target : Option String) :
    supportText name (schema : Field String) target = ".".intercalate (path (schema : Field String) name target) := by
  have hpath : (schema : Field String).given = Text.given (schema : Field String).given := by
    rcases schema with _ | s
    · rfl
    · rw [show ((some s : Option String) : Field String).given = if s = "" then none else some s from Field.given_text s]
      split
      · rfl
      · next hne => exact (Text.given_eq_some_iff.mpr ⟨rfl, hne⟩).symm
  rw [supportText, path, ← hpath]
  cases (schema : Field String).given with
  | none => exact String.intercalate_singleton.symm
  | some s =>
    dsimp only
    split
    · exact String.intercalate_singleton.symm
    · simp

/-- A support function that an option of the aggregate names. -/
theorem Aggregate.stands_support {a : Aggregate} {target schema : Option String} {name : Field String} {n : String}
    (h : a.ddl target ≠ "")
    (hsupport : name = a.transition ∧ (schema : Field String) = a.transitionSchema ∨
      name = a.final ∧ (schema : Field String) = a.finalSchema ∧ a.final.isGiven)
    (hn : n ∈ path (schema : Field String) name target) : Stands n (a.ddl target) := by
  have hcomplete : a.isComplete := by
    by_contra hmissing
    simp [ddl, hmissing] at h
  obtain ⟨front, options, comment, htext, word, hoption⟩ : ∃ (front : String) (options : List String) (comment : String),
      a.ddl target = front ++ ") (\n" ++ ",\n".intercalate (options.map ("    " ++ ·)) ++ "\n);" ++ comment ∧
        ∃ word, word ++ " = " ++ supportText name (schema : Field String) target ∈ options := by
    simp only [ddl, hcomplete, Bool.not_true, Bool.false_eq_true, if_false]
    refine ⟨_, _, _, rfl, ?_⟩
    obtain ⟨rfl, hschema⟩ | ⟨rfl, hschema, hgiven⟩ := hsupport
    · exact ⟨"SFUNC", by simp [hschema]⟩
    · exact ⟨"FINALFUNC", by simp [hschema, hgiven]⟩
  have hline : Stands ("    " ++ (word ++ " = " ++ supportText name (schema : Field String) target))
      (front ++ ") (\n" ++ ",\n".intercalate (options.map ("    " ++ ·)) ++ "\n);") :=
    Stands.intercalate isGap_line (List.mem_map_of_mem hoption) ((endsLead_line.behind ") (").behind front)
      (beginsBreak_line.before ");")
  have hwritten : Stands (supportText name (schema : Field String) target) (a.ddl target) := by
    rw [htext]
    refine (hline.trans fun front rest hfront hrest => ?_).before comment
    have hown : Stands (supportText name (schema : Field String) target)
        (front ++ "    " ++ (word ++ " = ") ++ supportText name (schema : Field String) target ++ rest) :=
      Stands.between (((endsLead_blank.behind " =").behind word).behind _) hrest
    simpa only [String.append_assoc] using hown
  rw [Aggregate.supportText_eq] at hwritten
  exact hwritten.of_path hn

/-! ## Types -/

theorem DomainConstraint.beginsBreak_join (constraints : List DomainConstraint) :
    String.join (constraints.map ddl) = "" ∨ BeginsBreak (String.join (constraints.map ddl)) := by
  cases constraints with
  | nil => exact .inl rfl
  | cons c constraints =>
    have hfirst : BeginsBreak c.ddl := ((beginsBreak_line.before "    ").before _).before _
    rw [List.map_cons, String.join_cons]
    exact .inr (hfirst.before _)

namespace UserType

variable {t : UserType} {target : Option String}

theorem isComplete_of_ddl (h : t.ddl target ≠ "") : t.isComplete := by
  by_contra hmissing
  simp [ddl, hmissing] at h

theorem stands_member {m : Member} (h : t.ddl target ≠ "") (hkind : t.kind = .composite) (hm : m ∈ t.members) :
    Stands (Ddl.nameText m.name) (t.ddl target) ∧ Stands (Ddl.typeText m.dataType target) (t.ddl target) := by
  have hcomplete := isComplete_of_ddl h
  have hmem : m.ddl target ∈ (byPosition (·.position) t.members).map (Member.ddl target) :=
    List.mem_map_of_mem (mem_byPosition.mpr hm)
  have hbody : Stands (m.ddl target) (compositeBody target t.members) :=
    Stands.intercalate isGap_line hmem (endsLead_line.behind " AS (") (beginsBreak_line.before ");")
  have hname : Stands (Ddl.nameText m.name) (compositeBody target t.members) :=
    hbody.trans fun front rest hfront hrest => by
      have hown : Stands (Ddl.nameText m.name)
          (front ++ "    " ++ Ddl.nameText m.name ++ (" " ++ Ddl.typeText m.dataType target ++ rest)) :=
        Stands.between ((endsLead_blank.behind "   ").behind front) ((beginsBreak_blank.before _).before rest)
      simpa only [Member.ddl, String.append_assoc] using hown
  have htype : Stands (Ddl.typeText m.dataType target) (compositeBody target t.members) :=
    hbody.trans fun front rest hfront hrest => by
      have hown : Stands (Ddl.typeText m.dataType target)
          (front ++ "    " ++ Ddl.nameText m.name ++ " " ++ Ddl.typeText m.dataType target ++ rest) :=
        Stands.between (endsLead_blank.behind _) hrest
      simpa only [Member.ddl, String.append_assoc] using hown
  simp only [ddl, hcomplete, hkind, Bool.not_true, Bool.false_eq_true, if_false]
  exact ⟨(hname.behind _).before _, (htype.behind _).before _⟩

theorem stands_base (h : t.ddl target ≠ "") (hkind : t.kind = .domain) :
    Stands (Ddl.typeText t.base target) (t.ddl target) := by
  have hcomplete := isComplete_of_ddl h
  obtain ⟨default, notNull, htext, hdefault, hnotNull⟩ : ∃ default notNull, domainBody target t =
      " AS " ++ Ddl.typeText t.base target ++ default ++ notNull ++ String.join (t.constraints.map DomainConstraint.ddl) ++
        ";" ∧ (default = "" ∨ BeginsBreak default) ∧ (notNull = "" ∨ BeginsBreak notNull) := by
    refine ⟨_, _, rfl, ?_, ?_⟩
    · split
      · exact .inr ((beginsBreak_blank.before "DEFAULT ").before _)
      · exact .inl rfl
    · split
      · exact .inr (beginsBreak_blank.before "NOT NULL")
      · exact .inl rfl
  have hbody : Stands (Ddl.typeText t.base target) (" AS " ++ Ddl.typeText t.base target ++
      (default ++ (notNull ++ (String.join (t.constraints.map DomainConstraint.ddl) ++ ";")))) :=
    Stands.between (endsLead_blank.behind " AS") (.behind hdefault (.behind hnotNull
      (.behind (DomainConstraint.beginsBreak_join t.constraints) beginsBreak_end)))
  simp only [ddl, hcomplete, hkind, Bool.not_true, Bool.false_eq_true, if_false, htext]
  refine Stands.before (Stands.behind ?_ _) _
  simpa only [String.append_assoc] using hbody

end UserType

/-! ## Names of a script -/

open Effect (schemaOf splitPath)

/-- The names of which the type is made, as a script for `target` shows it, stand bare. -/
def TypeStandsBare (stored : String) (target : Option String) (text : String) : Prop :=
  ∀ names, Sql.dropSchema (some (Sql.canonicalType stored)) target = some (".".intercalate names) →
    ∀ n ∈ names, StandsBare n text

/-- A table and its columns are named with quotes. The keys and the types that its definition names stand bare; the
columns may be declared for the table that it is a partition of. -/
structure TableNamed (default : String) (all : List Sql.Statement) (target : Option String) (t : Table)
    (text : String) : Prop where
  name : ∀ n ∈ path t.schema t.name target, StandsQuoted n text
  keys : ∃ definition, .createTable definition ∈ all ∧
    t.schema = (schemaOf default definition.relation : Field String) ∧
      t.name = (definition.relation.name : Field String) ∧
        ∀ p, definition.partitioning = some p → ∀ k ∈ p.keys, k ≠ "" → StandsBare k text
  columns : ∃ definition, .createTable definition ∈ all ∧ ∀ c ∈ t.columns, ∃ column ∈ definition.columns,
    c.name = (column.name : Field String) ∧ StandsQuoted column.name text ∧
      (Effect.isOwnType column.type → ∀ stored, stored ≠ "" →
        Effect.ownName (schemaOf default definition.relation) column.type = some stored →
          TypeStandsBare stored target text)

/-- The parameters of the definition stand bare. -/
def ParametersStandBare (definition : Sql.RoutineDefinition) (text : String) : Prop :=
  ∀ parameter ∈ definition.parameters, ∀ n, parameter.name = some n → n ≠ "" → StandsBare n text

/-- The text of an object has the names that the statement in the script gives it, as they are. -/
def NamesWritten (default : String) (all : List Sql.Statement) (target : Option String) (text : String) :
    Subject → Prop
  | .table t => TableNamed default all target t text
  | .trigger g => ∃ definition, .createTrigger definition ∈ all ∧ g.name = (definition.name : Field String) ∧
      ∀ names, Sql.dropSchema (some (Effect.callOf definition)) target =
        some (".".intercalate names ++ Effect.argumentsOf definition) → ∀ n ∈ names, StandsBare n text
  | .policy p => ∃ definition, .createPolicy definition ∈ all ∧ p.name = (definition.name : Field String) ∧
      ∀ n ∈ definition.namedRoles, StandsBare n text
  | .function f => ∃ definition, .createRoutine definition ∈ all ∧
      f.schema = ((splitPath default definition.path).1 : Field String) ∧
      f.name = ((splitPath default definition.path).2 : Field String) ∧ ParametersStandBare definition text ∧
      ∀ r, Effect.resultType definition = some r → Sql.dropSchema (some r) target = some r →
        ∀ column ∈ definition.resultColumns, StandsBare column.1 text
  | .procedure p => ∃ definition, .createRoutine definition ∈ all ∧
      p.schema = ((splitPath default definition.path).1 : Field String) ∧
      p.name = ((splitPath default definition.path).2 : Field String) ∧ ParametersStandBare definition text
  | .aggregate a => ∃ definition, .createAggregate definition ∈ all ∧
      a.schema = ((splitPath default definition.path).1 : Field String) ∧
      a.name = ((splitPath default definition.path).2 : Field String) ∧
      (∃ schema function, Effect.NamesSupport definition "sfunc" schema function ∧
        ∀ n ∈ path schema function target, StandsBare n text) ∧
      (a.final.isGiven → ∃ schema function, Effect.NamesSupport definition "finalfunc" schema function ∧
        ∀ n ∈ path schema function target, StandsBare n text)
  | .type t =>
      (t.kind = .composite → ∃ relation members, .createComposite relation members ∈ all ∧
        t.schema = (schemaOf default relation : Field String) ∧ t.name = (relation.name : Field String) ∧
        ∀ m ∈ t.members, ∃ entry ∈ members, m.name = (entry.1 : Field String) ∧ StandsQuoted entry.1 text ∧
          TypeStandsBare entry.2.text target text) ∧
      (t.kind = .domain → ∃ names base rules, .createDomain names base rules ∈ all ∧
        t.schema = ((splitPath default names).1 : Field String) ∧
        t.name = ((splitPath default names).2 : Field String) ∧ TypeStandsBare base.text target text)
  | .extension _ | .schema _ | .sequence _ | .rowSecurity _ | .constraint _ | .index _ | .view _ => True

theorem Stands.typeStandsBare {stored text : String} {target : Option String}
    (h : Stands (Ddl.typeText (stored : Field String) target) text) : TypeStandsBare stored target text := by
  intro names hshown n hn
  have htype : Ddl.typeText (stored : Field String) target = ".".intercalate names := by
    rw [Ddl.typeText, Field.text?_text, Option.map_some, hshown]
    rfl
  rw [htype] at h
  exact (h.of_path hn).bare

section

variable {default : String} {all : List Sql.Statement} {c : Catalog} {target : Option String} {p : Diff.Pair}
  {key : String} (h : (Effect.catalogOf default all).result = .ok c) (hfound : c.schemas.get? p.key = some p.schema)
include h hfound

theorem comes_of_found (kind : ObjectKind) {x : Content} (hx : p.schema.at? kind key = some x) :
    Effect.Comes default all c.partitions (.object p.key kind key) x :=
  Effect.comes_of_at? h (by simp) (by rw [Catalog.at?_object, hfound, Option.bind_some, hx])

theorem tableNamed {t : Table} (hkept : p.schema.tables.get? key = some t) (hwritten : t.ddl target ≠ "") :
    TableNamed default all target t (t.ddl target) where
  name n hn := (Table.stands_name hwritten hn).quoted
  keys := by
    have ht := ((Effect.filed_catalogOf h).schemas _ _ hfound).tables _ _ hkept
    have hcomes := comes_of_found h hfound .table (congrArg (Option.map Content.table) hkept)
    obtain ⟨definition, said, hschema, hname, hpartitioned⟩ := (Effect.isSaid_of_comes hcomes _ _ t rfl rfl).partitioning
    refine ⟨definition, said, by rw [ht.schema, hschema], by rw [ht.name, hname], fun p hp k hk hne => ?_⟩
    rw [Effect.partitioningOf, hp] at hpartitioned
    exact (Table.stands_key hwritten hpartitioned hk hne).bare
  columns := by
    have hcomes := comes_of_found h hfound .table (congrArg (Option.map Content.table) hkept)
    obtain ⟨definition, said, hall⟩ := Effect.allDeclared_of_comes hcomes _ _ t rfl rfl
    refine ⟨definition, said, fun column hmem => ?_⟩
    obtain ⟨declared, hdeclared, hcolumn⟩ := hall column hmem
    have hgiven : column.dataType.isGiven := by
      have hcomplete := (Table.exists_ddl_eq hwritten).1
      exact (Bool.and_eq_true_iff.mp
        (List.all_eq_true.mp (Bool.and_eq_true_iff.mp hcomplete).2 column hmem)).2
    obtain ⟨type, htype⟩ := Column.exists_typeText? hgiven target
    obtain ⟨hname, hstands⟩ := Table.stands_column hwritten hmem hcolumn.name htype
    refine ⟨declared, hdeclared, hcolumn.name, hname.quoted, fun hown stored hne hstored names hshown n hn => ?_⟩
    have hfixed := hcolumn.type hown
    rw [hstored] at hfixed
    have hsame := (Column.typeText?_of_fixedPart hfixed hne target).trans hshown
    obtain rfl := Option.some.inj (htype.symm.trans hsame)
    exact (hstands.of_path hn).bare

theorem ownedNamed {t : Table} {s : Subject} {x : Piece} {tag : Tag} (hkept : p.schema.tables.get? key = some t)
    (howns : Diff.Owns p tag t s x) (hwritten : s.ddl p.target ≠ "") :
    NamesWritten default all p.target (s.ddl p.target) s := by
  have ht := ((Effect.filed_catalogOf h).schemas _ _ hfound).tables _ _ hkept
  have hcomes := comes_of_found h hfound .table (congrArg (Option.map Content.table) hkept)
  have hsaid := Effect.isSaid_of_comes hcomes _ _ t rfl rfl
  cases howns with
  | trigger kept =>
    obtain ⟨definition, said, hname, hfunction⟩ := hsaid.triggers _ _ kept
    refine ⟨definition, said, by rw [(ht.orderly.triggers _ _ kept).name, hname], fun names hshown n hn => ?_⟩
    have hbehind : Effect.argumentsOf definition = "" ∨ BeginsBreak (Effect.argumentsOf definition) := by
      unfold Effect.argumentsOf
      split
      · exact .inl rfl
      · exact .inr ((beginsBreak_open.before _).before ")")
    exact (Trigger.stands_function hwritten hfunction hshown hbehind hn).bare
  | policy kept =>
    obtain ⟨definition, said, hname, hroles⟩ := hsaid.policies _ _ kept
    refine ⟨definition, said, by rw [(ht.orderly.policies _ _ kept).name, hname], fun n hn => ?_⟩
    exact (Policy.stands_role hwritten hroles hn).bare
  | index | constraint | rowSecurity => trivial

theorem typeNamed {t : UserType} (hkept : p.schema.types.get? key = some t) (hwritten : t.ddl target ≠ "") :
    NamesWritten default all target (t.ddl target) (.type t) := by
  have ht := ((Effect.filed_catalogOf h).schemas _ _ hfound).types _ _ hkept
  have hcomes := comes_of_found h hfound .type (congrArg (Option.map Content.type) hkept)
  cases Effect.isTyped_of_comes hcomes with
  | enum hkind => exact ⟨fun hk => by simp [hkind] at hk, fun hk => by simp [hkind] at hk⟩
  | @composite relation members hkind said hschema hname typed =>
    refine ⟨fun _ => ⟨relation, members, said, by rw [ht.schema, hschema], by rw [ht.name, hname], fun m hm => ?_⟩,
      fun hk => by simp [hkind] at hk⟩
    obtain ⟨entry, hentry, hmname, htype⟩ := typed m hm
    obtain ⟨hquoted, hstands⟩ := UserType.stands_member hwritten hkind hm
    rw [htype] at hstands
    have hquote : Ddl.nameText m.name = Sql.quoteName entry.1 := by
      rw [hmname, Ddl.nameText, Field.text?_text]
      rfl
    rw [hquote] at hquoted
    exact ⟨entry, hentry, hmname, hquoted.quoted, hstands.typeStandsBare⟩
  | @domain names base rules hkind said hpath typed =>
    refine ⟨fun hk => by simp [hkind] at hk, fun _ => ⟨names, base, rules, said, ?_, ?_, ?_⟩⟩
    · rw [ht.schema, hpath]
    · rw [ht.name, hpath]
    · have hstands := UserType.stands_base hwritten hkind
      rw [typed] at hstands
      exact hstands.typeStandsBare

theorem aggregateNamed {a : Aggregate} (hkept : p.schema.aggregates.get? key = some a) (hwritten : a.ddl target ≠ "") :
    NamesWritten default all target (a.ddl target) (.aggregate a) := by
  have ha := ((Effect.filed_catalogOf h).schemas _ _ hfound).aggregates _ _ hkept
  have hcomes := comes_of_found h hfound .aggregate (congrArg (Option.map Content.aggregate) hkept)
  obtain ⟨definition, said, hpath, hmade⟩ := Effect.isAggregate_of_comes hcomes
  have htransition : a.transition.isGiven := by
    have hcomplete : a.isComplete := by
      by_contra hmissing
      simp [Aggregate.ddl, hmissing] at hwritten
    simp only [Aggregate.isComplete, Bool.and_eq_true] at hcomplete
    exact hcomplete.1.2
  refine ⟨definition, said, by rw [ha.schema, hpath], by rw [ha.name, hpath], ?_, fun hfinal => ?_⟩
  · have hsupport := hmade.transition htransition
    refine ⟨_, _, hsupport, fun n hn => ?_⟩
    obtain ⟨entry, -, -, hschema, -⟩ := hsupport
    rw [hschema] at hn
    exact (Aggregate.stands_support hwritten (.inl ⟨rfl, hschema.symm⟩) hn).bare
  · have hsupport := hmade.final hfinal
    refine ⟨_, _, hsupport, fun n hn => ?_⟩
    obtain ⟨entry, -, -, hschema, -⟩ := hsupport
    rw [hschema] at hn
    exact (Aggregate.stands_support hwritten (.inr ⟨rfl, hschema.symm, hfinal⟩) hn).bare

theorem functionNamed {f : StoredFunction} (hkept : p.schema.functions.get? key = some f)
    (hwritten : f.ddl target ≠ "") : NamesWritten default all target (f.ddl target) (.function f) := by
  have hf := ((Effect.filed_catalogOf h).schemas _ _ hfound).functions _ _ hkept
  have hcomes := comes_of_found h hfound .function (congrArg (Option.map Content.function) hkept)
  obtain ⟨definition, said, hpath, hmade⟩ := Effect.isRoutine_of_comes hcomes (.inl rfl) rfl
  obtain ⟨signature, returnType⟩ | _ := hmade
  refine ⟨definition, said, by rw [hf.schema, hpath], by rw [hf.name, hpath], ?_, fun r hr hshown column hcolumn => ?_⟩
  · exact fun parameter hparameter n hn hne =>
      (StoredFunction.stands_parameter hwritten signature hparameter hn hne).bare
  · exact (StoredFunction.stands_column hwritten returnType hcolumn hr hshown).bare

theorem procedureNamed {r : Procedure} (hkept : p.schema.procedures.get? key = some r)
    (hwritten : r.ddl target ≠ "") : NamesWritten default all target (r.ddl target) (.procedure r) := by
  have hr := ((Effect.filed_catalogOf h).schemas _ _ hfound).procedures _ _ hkept
  have hcomes := comes_of_found h hfound .procedure (congrArg (Option.map Content.procedure) hkept)
  obtain ⟨definition, said, hpath, hmade⟩ := Effect.isRoutine_of_comes hcomes (.inr rfl) rfl
  obtain _ | ⟨signature⟩ := hmade
  exact ⟨definition, said, by rw [hr.schema, hpath], by rw [hr.name, hpath],
    fun parameter hparameter n hn hne => (Procedure.stands_parameter hwritten signature hparameter hn hne).bare⟩

end

theorem Diff.Covers.namesWritten {default : String} {all : List Sql.Statement} {old c : Catalog}
    {target : Option String} {s : Subject} {x : Piece} (hcovers : Covers old c target s x) (hx : x.text ≠ "")
    (h : (Effect.catalogOf default all).result = .ok c) : NamesWritten default all (Text.given target) x.text s := by
  rw [hcovers.text_eq.1] at hx ⊢
  cases hcovers with
  | extension | schema => trivial
  | @inSchema p _ _ _ walked held =>
    obtain ⟨hfound, -, htarget⟩ := Pair.get?_of_mem_pairs walked
    cases held with
    | type kept _ => exact typeNamed h hfound kept hx
    | sequence | view => trivial
    | table visited part =>
      cases part with
      | self => exact tableNamed h hfound visited.kept hx
      | owned _ owns =>
        rw [← htarget] at hx ⊢
        exact ownedNamed h hfound visited.kept owns hx
    | function kept _ => exact functionNamed h hfound kept hx
    | aggregate kept _ => exact aggregateNamed h hfound kept hx
    | procedure kept _ => exact procedureNamed h hfound kept hx

/-- In what is written for a script, the names of tables and columns are quoted where they have to be, and read
back. The names inside stored texts are the ones that the script's statements give, written as they are, so that
only those come back that are their own spelling. -/
theorem names_of_script {sql default : String} {c : Catalog} (h : (Catalog.ofSql sql default).result = .ok c)
    (target : Option String) : ∃ all ps, Sql.statements sql = .ok all ∧ (Diff.pieces {} c target).result = .ok ps ∧
      ∀ s x, Diff.Covers {} c target s x → x ∈ ps → NamesWritten default all (Text.given target) x.text s := by
  obtain ⟨text, htext⟩ := (Effect.writable_ofSql h).ends_dump target false
  obtain ⟨ps, hpieces, -⟩ := Logged.result_bind_eq_ok.mp htext
  rcases hsql : Sql.statements sql with flaw | all
  · rw [Catalog.ofSql_of_error hsql] at h
    contradiction
  · rw [Catalog.ofSql_of_ok hsql] at h
    refine ⟨all, ps, rfl, hpieces, fun s x hcovers hx => ?_⟩
    exact hcovers.namesWritten ((Diff.mem_pieces_iff hpieces hcovers.text_eq.2).mp hx).1 h

/-- A column with a capital letter that is also the partition key. -/
def capitalKey : String :=
  "create table t (\"A\" int) partition by list (\"A\")"

/-- The key stands bare, where it is read as another name. -/
theorem capitalKey_names : ∃ c all ps, (Catalog.ofSql capitalKey "public").result = .ok c ∧
    (c.dump (some "public") false).result = .ok "CREATE TABLE t (\n    \"A\" integer\n)\nPARTITION BY LIST (A);\n" ∧
    ¬ IsOwnSpelling "A" ∧ Sql.statements capitalKey = .ok all ∧
    (Diff.pieces {} c (some "public")).result = .ok ps ∧
    ∀ s x, Diff.Covers {} c (some "public") s x → x ∈ ps → NamesWritten "public" all (some "public") x.text s := by
  have hdump : ((Catalog.ofSql capitalKey "public").result.toOption.bind
      fun c => (c.dump (some "public") false).result.toOption) =
      some "CREATE TABLE t (\n    \"A\" integer\n)\nPARTITION BY LIST (A);\n" := by decide +kernel
  obtain ⟨c, hc, hdump⟩ := Option.bind_eq_some_iff.mp hdump
  obtain ⟨all, ps, hall, hps, hnames⟩ := names_of_script (eq_ok_of_toOption hc) (some "public")
  have hown : ¬ IsOwnSpelling "A" := fun h => absurd h.2 (by decide +kernel)
  exact ⟨c, all, ps, eq_ok_of_toOption hc, eq_ok_of_toOption hdump, hown, hall, hps, hnames⟩

end SchemaScript
