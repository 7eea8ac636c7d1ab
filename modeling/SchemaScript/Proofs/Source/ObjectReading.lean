import SchemaScript.Proofs.Effect.Creation
import SchemaScript.Proofs.Source.SequenceStart
import SchemaScript.Proofs.Sql.EnumText

/-!
# Sequences and enumerations that are read again

What is written of a sequence leaves out what a sequence has anyway: the widest type, and a first value and a step of
one. It describes the same sequence again, with every number and with its comment (`sequence_read_again`).

What is written of an enumeration describes the same enumeration again, whatever its labels are. Its comment is lost,
or the whole text is refused, exactly where the name is a keyword of columns that stands for no type of that name in
that schema (`enum_read_again_iff`): such a name is written without quotes, and where a comment names a type it is
read as another type or as none.
-/

namespace SchemaScript

open Sql

/-! ## Sequences -/

/-- A sequence of these numbers that no column owns. -/
def Sequence.ofNumbers (schema name : String) (n : SequenceNumbers) (comment : Option String) : Sequence where
  schema := schema
  name := name
  dataType := n.type.name
  start := n.start
  increment := n.increment
  minimum := n.minimum
  maximum := n.maximum
  cycle := n.cycles
  comment := comment

namespace Sequence

variable {schema name : String} {n : SequenceNumbers} {comment : Option String}

theorem ofNumbers_has (schema name : String) (n : SequenceNumbers) (comment : Option String) :
    (ofNumbers schema name n comment).Has n :=
  { publicSequence_has name n with }

/-! ### What the clauses say -/

/-- The sequence with what a clause says of it. -/
def set (s : Sequence) : SequenceClause → Sequence
  | .dataType type => { s with dataType := type.name }
  | .start m => { s with start := m }
  | .increment m => { s with increment := m }
  | .minimum bound => { s with minimum := bound }
  | .maximum bound => { s with maximum := bound }
  | .cycle => { s with cycle := true }

theorem sequenceOption_option (s : Sequence) (clause : SequenceClause) :
    Effect.sequenceOption s clause.option = .ok (s.set clause) := by
  have hbound (bound : Option Int) : Effect.maybeWholeNumber (bound.map writtenNumber) = .ok bound := by
    cases bound with
    | none => rfl
    | some m =>
      rw [Option.map_some, Effect.maybeWholeNumber, wholeNumber_writtenNumber]
      rfl
  cases clause with
  | dataType type => cases type <;> rfl
  | start m | increment m =>
    rw [SequenceClause.option, Effect.sequenceOption, wholeNumber_writtenNumber]
    rfl
  | minimum bound | maximum bound =>
    rw [SequenceClause.option, Effect.sequenceOption, hbound]
    rfl
  | cycle => rfl

theorem foldlM_option (clauses : List SequenceClause) (s : Sequence) :
    (clauses.map SequenceClause.option).foldlM Effect.sequenceOption s = .ok (clauses.foldl set s) := by
  induction clauses generalizing s with
  | nil => rfl
  | cons clause clauses ih =>
    rw [List.map_cons, List.foldlM_cons, sequenceOption_option]
    exact ih (s.set clause)

/-- The clauses say everything in which the sequence differs from a plain one. -/
theorem foldl_clauses (schema name : String) (n : SequenceNumbers) :
    n.clauses.foldl set { schema, name } = ofNumbers schema name n none := by
  obtain ⟨type, start, increment, minimum, maximum, cycles⟩ := n
  have htype : (if type = .bigint then [] else [SequenceClause.dataType type]).foldl set { schema, name } =
      ({ schema, name, dataType := type.name } : Sequence) := by
    cases type <;> rfl
  have hone {p : Prop} [Decidable p] (clause : SequenceClause) (s : Sequence) :
      (if p then [] else [clause]).foldl set s = if p then s else s.set clause := by
    split <;> rfl
  unfold SequenceNumbers.clauses
  simp only [List.foldl_append, htype, hone]
  by_cases hstart : start = 1 <;> by_cases hincrement : increment = 1 <;> cases cycles <;>
    simp only [hstart, hincrement, if_true, if_false, set, ofNumbers] <;> rfl

end Sequence

namespace Effect

/-- The statement that is written for a sequence creates it, apart from its comment. -/
theorem createSequence_options (schema name : String) (n : SequenceNumbers) (c : Catalog) :
    effect schema c (.createSequence (.ofPath [name]) n.options) =
      .ok (c.updateSchema schema fun s => s.put name (.sequence (Sequence.ofNumbers schema name n none))) := by
  have hoptions := Sequence.foldlM_option n.clauses { schema, name }
  rw [Sequence.foldl_clauses] at hoptions
  show createSequence schema c { name } n.options = _
  have hrun : n.options.foldlM sequenceOption { schema, name } = .ok (Sequence.ofNumbers schema name n none) := hoptions
  unfold createSequence
  show n.options.foldlM sequenceOption { schema, name } >>= _ = _
  rw [hrun]
  rfl

end Effect

/-- What is written of a sequence describes that sequence, with its numbers and its comment. -/
theorem sequence_read_again (schema : String) {name : String} (hname : IsProperName name) (n : SequenceNumbers)
    {comment : Option String} (hcomment : IsComment comment) :
    ∃ c, (Catalog.ofSql ((Sequence.ofNumbers schema name n comment).ddl (some schema)) schema).result = .ok c ∧
      c.at? (.object schema .sequence name) = some (.sequence (Sequence.ofNumbers schema name n comment)) := by
  have hgiven : (Sequence.ofNumbers schema name n comment).name.isGiven := Field.isGiven_text hname.nonempty
  have hpath : Ddl.path (Sequence.ofNumbers schema name n comment).schema
      (Sequence.ofNumbers schema name n comment).name (some schema) = [name] := Ddl.path_target schema name
  have hgivenComment : (Sequence.ofNumbers schema name n comment).comment.given = comment := hcomment.given
  have hkept : ∀ n ∈ [name], IsKept n := List.forall_mem_singleton.mpr hname.isKept
  rw [← hpath] at hkept
  have hread := Sequence.statements_ddl (Sequence.ofNumbers_has schema name n comment) hgiven hkept
    (by rw [hgivenComment]; exact fun text htext => (hcomment text htext).2)
  rw [hpath, hgivenComment] at hread
  rw [Catalog.ofSql_of_ok hread]
  have hcreate := Effect.createSequence_options schema name n Effect.start
  exact Effect.exists_catalogOf_commented (s := .createSequence (.ofPath [name]) n.options)
    (x := .sequence (Sequence.ofNumbers schema name n comment)) rfl nofun rfl rfl rfl hcreate comment

/-- A sequence that counts down to a number of more than 64 bits, whose name has to be quoted. -/
theorem countdown_read_again :
    let n : SequenceNumbers :=
      { type := .smallint, start := -5, increment := -2, minimum := some (-2 ^ 70), cycles := true }
    IsProperName "Count Down" ∧ IsComment (some "it's over\nat the end") ∧
      ∃ c, (Catalog.ofSql ((Sequence.ofNumbers "app" "Count Down" n (some "it's over\nat the end")).ddl (some "app"))
          "app").result = .ok c ∧
        c.at? (.object "app" .sequence "Count Down") =
          some (.sequence (Sequence.ofNumbers "app" "Count Down" n (some "it's over\nat the end"))) := by
  intro n
  have hname : IsProperName "Count Down" := by decide
  have hcomment : IsComment (some "it's over\nat the end") := by
    rintro _ ⟨⟩
    exact ⟨by decide, by decide⟩
  exact ⟨hname, hcomment, sequence_read_again "app" hname n hcomment⟩

/-! ## Enumerations -/

/-- An enumeration with these labels. -/
def UserType.ofLabels (schema name : String) (labels : List String) (comment : Option String) : UserType where
  schema := schema
  name := name
  kind := .enum
  labels := labels
  comment := comment

section

variable {schema name text : String} {labels : List String} {comment : Option String}

theorem Field.texts_ofTexts (items : List String) : (items : Field (List String)).texts = items := by
  show ((Json.ofTexts items).items?.getD []).map Json.plain = items
  simp [Json.ofTexts, Json.items?, Function.comp_def, Json.plain]

namespace UserType

/-- The body of an enumeration is its labels, set between its name and a semicolon. -/
theorem ddl_ofLabels (hname : name ≠ "") : (ofLabels schema name labels comment).ddl (some schema) =
    enumText [name] labels ++ ";" ++ Ddl.commentAfter ("TYPE " ++ pathText [name]) comment := by
  have hgiven : (ofLabels schema name labels comment).name.isGiven := Field.isGiven_text hname
  have hcomplete : (ofLabels schema name labels comment).isComplete := by
    rw [isComplete, hgiven]
    rfl
  have hreference : Ddl.reference (ofLabels schema name labels comment).schema
      (ofLabels schema name labels comment).name (some schema) = pathText [name] := by
    rw [Ddl.reference_eq_pathText hgiven]
    exact congrArg pathText (Ddl.path_target schema name)
  have hbody : enumBody labels = " AS ENUM " ++ labelsText labels ++ ";" := by
    unfold enumBody labelsText
    cases labels with
    | nil => rfl
    | cons label labels =>
      have hfront : " AS ENUM (\n" = " AS ENUM " ++ "(\n" := rfl
      have hend : "\n);" = "\n)" ++ ";" := rfl
      rw [List.map_map, hfront, hend]
      simp only [List.isEmpty_cons, Bool.false_eq_true, if_false, String.append_assoc]
      rfl
  unfold ddl
  rw [hcomplete, hreference]
  show "CREATE TYPE " ++ pathText [name] ++ enumBody (labels : Field (List String)).texts ++ _ = _
  rw [Field.texts_ofTexts, hbody, enumText]
  simp only [String.append_assoc]
  rfl

end UserType

theorem Sql.CommentKind.object?_type : CommentKind.type.object? = some .type := rfl

namespace Effect

theorem splitPath_single (default name : String) : splitPath default [name] = (default, name) := rfl

theorem splitPath_pair (default schema name : String) : splitPath default [schema, name] = (schema, name) := rfl

theorem createEnum_effect (schema name : String) (labels : List String) :
    effect schema start (.createEnum [name] labels) = .ok (start.updateSchema schema fun s =>
      s.put name (.type (UserType.ofLabels schema name labels none))) := rfl

end Effect

/-- The text is the statement that creates the enumeration, and its comment. -/
theorem toList_ddl_ofLabels (schema : String) (hname : name ≠ "") :
    ((UserType.ofLabels schema name labels comment).ddl (some schema)).toList = (enumText [name] labels).toList ++
      ';' :: (Ddl.commentAfter ("TYPE " ++ pathText [name]) comment).toList := by
  rw [UserType.ddl_ofLabels hname, String.toList_append, String.toList_append, List.append_assoc]
  rfl

/-- The script describes the enumeration as it is. -/
def ReadsAgain (schema name : String) (labels : List String) (comment : Option String) : Prop :=
  ∃ c, (Catalog.ofSql ((UserType.ofLabels schema name labels comment).ddl (some schema)) schema).result = .ok c ∧
    c.at? (.object schema .type name) = some (.type (UserType.ofLabels schema name labels comment))

section

variable (hname : IsProperName name) (hlabels : ∀ l ∈ labels, '\x00' ∉ l.toList)
include hname hlabels

theorem isSentence_labels : IsSentence (enumText [name] labels).toList (.createEnum [name] labels) :=
  isSentence_enum (List.cons_ne_nil _ _) (List.forall_mem_singleton.mpr hname.isKept) hlabels

/-- A comment that names the type is read as its comment. -/
theorem readsAgain_of_path {path : List String} (hpath : Effect.splitPath schema path = (schema, name))
    (hrest : IsScript (Ddl.commentAfter ("TYPE " ++ pathText [name]) comment).toList
      (Effect.commentStatements .type path comment)) : ReadsAgain schema name labels comment := by
  have hscript := (isSentence_labels hname hlabels).script hrest
  rw [← toList_ddl_ofLabels schema hname.nonempty] at hscript
  rw [ReadsAgain, Catalog.ofSql_of_ok hscript.statements]
  exact Effect.exists_catalogOf_commented (s := .createEnum [name] labels)
    (x := .type (UserType.ofLabels schema name labels comment)) rfl nofun Sql.CommentKind.object?_type rfl hpath
    (Effect.createEnum_effect schema name labels) comment

/-- A comment that names another type is lost. -/
theorem not_readsAgain_of_path {path : List String} {holder other : String}
    (hpath : Effect.splitPath schema path = (holder, other)) (hother : ¬ (holder = schema ∧ other = name))
    (hrest : IsScript (Ddl.commentAfter ("TYPE " ++ pathText [name]) (some text)).toList
      [.comment .type path (some text)]) : ¬ ReadsAgain schema name labels (some text) := by
  rintro ⟨c, hresult, hfound⟩
  have hscript := (isSentence_labels hname hlabels).script hrest
  rw [← toList_ddl_ofLabels schema hname.nonempty] at hscript
  have hskipped := Effect.result_comment_of_none Sql.CommentKind.object?_type hpath
    (Effect.at?_start_put_of_ne (x := .type (UserType.ofLabels schema name labels none)) hother) (some text)
  rw [Catalog.ofSql_of_ok hscript.statements, Effect.result_catalogOf_commented (s := .createEnum [name] labels) rfl
    nofun (Effect.createEnum_effect schema name labels) hskipped] at hresult
  obtain rfl := Except.ok.inj hresult
  have hplain : (Effect.start.updateSchema schema fun s => s.put name
      (.type (UserType.ofLabels schema name labels none))).at? (.object schema .type name) =
        some (.type (UserType.ofLabels schema name labels none)) :=
    Effect.at?_start_put (x := .type (UserType.ofLabels schema name labels none)) rfl .absent
  have hsame := congrArg UserType.comment (Content.type.inj (Option.some.inj (hplain.symm.trans hfound)))
  nomatch hsame

theorem not_readsAgain_of_refused
    (hrest : IsRefused (Ddl.commentAfter ("TYPE " ++ pathText [name]) comment).toList) :
    ¬ ReadsAgain schema name labels comment := by
  rintro ⟨c, hresult, -⟩
  have hscript := (isSentence_labels hname hlabels).refused hrest
  rw [← toList_ddl_ofLabels schema hname.nonempty] at hscript
  obtain ⟨flaw, hflaw⟩ := hscript.statements
  rw [Catalog.ofSql_of_error hflaw] at hresult
  contradiction

end

end

/-- The types of the system that are called by a keyword as they are called inside. -/
def ownKeywords : List String :=
  ["bit", "interval", "json", "numeric", "time", "timestamp", "varchar"]

theorem mem_ownKeywords_iff {name : String} : name ∈ ownKeywords ↔ typeKeywords.lookup name = some name := by
  have hown : ∀ w ∈ ownKeywords, typeKeywords.lookup w = some w := by decide
  have hall : ∀ p ∈ typeKeywords, p.2 = p.1 → p.1 ∈ ownKeywords := by decide
  refine ⟨hown name, fun h => ?_⟩
  exact hall (name, name) (mem_typeKeywords h) rfl

/-- What is written of an enumeration describes that enumeration with its labels and its comment, unless there is a
comment and the name is a keyword of columns. Such a name stands for the type only in the schema of the system's types,
if it is also what the keyword's type is called inside. -/
theorem enum_read_again_iff (schema : String) {name : String} (hname : IsProperName name) {labels : List String}
    (hlabels : ∀ l ∈ labels, '\x00' ∉ l.toList) {comment : Option String} (hcomment : IsComment comment) :
    (∃ c, (Catalog.ofSql ((UserType.ofLabels schema name labels comment).ddl (some schema)) schema).result = .ok c ∧
        c.at? (.object schema .type name) = some (.type (UserType.ofLabels schema name labels comment))) ↔
      comment = none ∨ isColumnKeyword name = false ∨ schema = "pg_catalog" ∧ name ∈ ownKeywords := by
  have hsubject : "TYPE " ++ pathText [name] =
      kindText .type ++ " " ++ namingText (Reader.kindNaming .type) [name] := rfl
  have hown := Effect.splitPath_single schema name
  cases comment with
  | none => exact iff_of_true (readsAgain_of_path hname hlabels hown isScript_nil) (.inl rfl)
  | some text =>
    obtain ⟨hgiven, hzero⟩ := hcomment text rfl
    have hremark := Effect.toList_commentAfter hgiven hsubject
    by_cases hkeyword : isColumnKeyword name
    · have hmem : name ∈ columnKeywords := List.contains_iff_mem.mp hkeyword
      have hwords : ¬ (schema = "pg_catalog" ∧ name ∈ ownKeywords) → ¬ ((some text : Option String) = none ∨
          isColumnKeyword name = false ∨ schema = "pg_catalog" ∧ name ∈ ownKeywords) := by
        simp [hkeyword]
      cases hinside : typeKeywords.lookup name with
      | none =>
        have hrefused := (isRefused_keywordRemark hmem hinside hname.isKept hzero).behind_newline.behind_newline
        rw [← hremark] at hrefused
        refine iff_of_false (not_readsAgain_of_refused hname hlabels hrefused) (hwords fun h => ?_)
        rw [mem_ownKeywords_iff.mp h.2] at hinside
        contradiction
      | some inside =>
        have hscript := isScript_systemRemark hmem hinside hname.isKept hzero
        have hcommented := hscript.behind_newline.behind_newline
        rw [← hremark] at hcommented
        by_cases hsame : "pg_catalog" = schema ∧ inside = name
        · obtain ⟨rfl, rfl⟩ := hsame
          exact iff_of_true (readsAgain_of_path hname hlabels (Effect.splitPath_pair ..) hcommented)
            (.inr (.inr ⟨rfl, mem_ownKeywords_iff.mpr hinside⟩))
        · refine iff_of_false (not_readsAgain_of_path hname hlabels (Effect.splitPath_pair ..) hsame hcommented)
            (hwords fun h => hsame ?_)
          rw [mem_ownKeywords_iff.mp h.2] at hinside
          exact ⟨h.1.symm, (Option.some.inj hinside).symm⟩
    · have hplain := eq_false_of_ne_true hkeyword
      have hnamed : IsNamedBy (Reader.kindNaming .type) [name] := (isNamedBy_type_iff hname.nonempty).mpr hplain
      have hkept : ∀ n ∈ [name], IsKept n := List.forall_mem_singleton.mpr hname.isKept
      have hcommented := Effect.isScript_commentAfter hcomment hnamed hkept hsubject
      exact iff_of_true (readsAgain_of_path hname hlabels hown hcommented) (.inr (.inl hplain))

/-- The labels of an interval are read again, and its comment is lost; under another name both are read. -/
theorem interval_comment_lost :
    let labels := ["it's", "back\\slash", "two\nlines", "', 'other", ""]
    let comment := some "how often, it's"
    IsProperName "interval" ∧ IsProperName "Interval" ∧ (∀ l ∈ labels, '\x00' ∉ l.toList) ∧ IsComment comment ∧
      (∃ c, (Catalog.ofSql ((UserType.ofLabels "app" "interval" labels none).ddl (some "app")) "app").result = .ok c ∧
        c.at? (.object "app" .type "interval") = some (.type (UserType.ofLabels "app" "interval" labels none))) ∧
      (¬ ∃ c, (Catalog.ofSql ((UserType.ofLabels "app" "interval" labels comment).ddl (some "app")) "app").result =
          .ok c ∧
        c.at? (.object "app" .type "interval") = some (.type (UserType.ofLabels "app" "interval" labels comment))) ∧
      ∃ c, (Catalog.ofSql ((UserType.ofLabels "app" "Interval" labels comment).ddl (some "app")) "app").result = .ok c ∧
        c.at? (.object "app" .type "Interval") = some (.type (UserType.ofLabels "app" "Interval" labels comment)) := by
  intro labels comment
  have hname : IsProperName "interval" := by decide
  have hother : IsProperName "Interval" := by decide
  have hlabels : ∀ l ∈ labels, '\x00' ∉ l.toList := by decide
  have hcomment : IsComment (some "how often, it's") := by
    rintro _ ⟨⟩
    exact ⟨by decide, by decide⟩
  have hnone : IsComment none := nofun
  refine ⟨hname, hother, hlabels, hcomment, ?_, ?_, ?_⟩
  · exact (enum_read_again_iff "app" hname hlabels hnone).mpr (.inl rfl)
  · exact (enum_read_again_iff "app" hname hlabels hcomment).not.mpr (by decide)
  · exact (enum_read_again_iff "app" hother hlabels hcomment).mpr (.inr (.inl (by decide)))

end SchemaScript
