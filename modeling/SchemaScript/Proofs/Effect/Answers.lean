import SchemaScript.CommandLine.Run
import SchemaScript.Proofs.Effect.Outcome
import SchemaScript.Service

/-!
# Answers to scripts

Where a script does not derail, the service fulfils an order or blames it, and a run of the command line
ends with a report; where it does, neither happens (`scripts_answered_iff`).
-/

namespace SchemaScript

open Effect (TextDerails)

namespace Logged

variable {α β : Type} {x : Logged α} {f : α → Logged β}

theorem Ends.not_derails (h : x.Ends) : ¬ x.Derails := by
  obtain ⟨a, ha⟩ := h
  rintro ⟨fault, hfault, -⟩
  simp [ha] at hfault

/-- What ends with a value, after whatever the first step gives, changes nothing about how it ends. -/
theorem bind_ends_alike (h : ∀ a, x.result = .ok a → (f a).Ends) :
    ((x >>= f).Derails ↔ x.Derails) ∧ ((x >>= f).Ends ↔ x.Ends) := by
  rw [derails_bind_iff, ends_bind_iff]
  refine ⟨or_iff_left ?_, exists_congr fun a => and_iff_left_of_imp (h a)⟩
  rintro ⟨a, ha, hderails⟩
  exact (h a ha).not_derails hderails

end Logged

open Logged (derails_bind_iff ends_bind_iff not_derails_of_gives)

/-! ## The service -/

/-- The text is whole and derails as a script. -/
def LettersDerail (letters : List Letter) : Prop :=
  Letter.firstGap? letters = none ∧ TextDerails "public" (Letter.mended letters)

theorem ofLetters_derails_iff {letters : List Letter} :
    (Catalog.ofLetters letters "public").Derails ↔ LettersDerail letters := by
  unfold Catalog.ofLetters LettersDerail
  split
  · next gap hgap => exact iff_of_false (not_derails_of_gives (P := fun _ => True) rfl) (by simp [hgap])
  · next hwhole => simp [hwhole, Effect.ofSql_derails_iff]

theorem writable_ofLetters {letters : List Letter} {default : String} {c : Catalog}
    (h : (Catalog.ofLetters letters default).result = .ok c) : c.Writable := by
  unfold Catalog.ofLetters at h
  split at h
  · contradiction
  · exact Effect.writable_ofSql h

namespace Service

/-- The request is an order of that kind, with these fields and a manner in which to write. -/
structure Request.Asks (request : Request) (route : Route) (fields : List (String × Json)) : Prop where
  method : request.method = "POST"
  path : Route.ofPath? request.path = some route
  body : fields? request.body = some fields
  manner : (Manner.ofFields? fields).isSome

/-- The request is fulfilled or refused as wrong, or the service itself fails, which is the case
exactly under the condition. -/
def Answered (request : Request) (fails : Prop) : Prop :=
  ∃ response, (respond request).result = .ok response ∧
    (response.status = 200 ∨ response.status = 400 ∨ response.status = 500) ∧
    (response.status = 500 ↔ fails)

theorem answerWith_fails_iff (work : String) (script : Logged String) :
    ∃ response, (answerWith work script).result = .ok response ∧
      (response.status = 200 ∨ response.status = 400 ∨ response.status = 500) ∧
      (response.status = 500 ↔ script.Derails) := by
  unfold answerWith Logged.Derails
  rcases script.result with fault | text
  · by_cases hinput : fault.isInput
    · exact ⟨detail 400 fault, by simp [hinput], by simp [detail], by simp [detail, hinput]⟩
    · exact ⟨detail 500 fault, by simp [hinput], by simp [detail], by simp [detail, hinput]⟩
  · exact ⟨_, rfl, by simp, by simp⟩

theorem answered_of_script {request : Request} {route : Route} {fields : List (String × Json)}
    {script : Logged String} {fails : Prop} (hasks : request.Asks route fields)
    (hroute : route = .dump ∨ route = .diff) (hscript : route.script? request.body = some script)
    (hfails : script.Derails ↔ fails) : Answered request fails := by
  have hrespond : respond request = answerWith route.work script := by
    unfold respond
    rw [hasks.path]
    rcases hroute with rfl | rfl <;> simp [Route.respond, Route.methods, hasks.method, hscript]
  obtain ⟨response, hresponse, hstatus, h500⟩ := answerWith_fails_iff route.work script
  exact ⟨response, by rw [hrespond, hresponse], hstatus, h500.trans hfails⟩

theorem dump_answered {request : Request} {fields : List (String × Json)} {sql : List Letter}
    (hasks : request.Asks .dump fields) (hsql : requiredText? "sql" fields = some sql) :
    Answered request (LettersDerail sql) := by
  obtain ⟨manner, hmanner⟩ := Option.isSome_iff_exists.mp hasks.manner
  refine answered_of_script hasks (.inl rfl) (by
    simp only [Route.script?, hasks.body, hmanner, hsql, Option.bind_eq_bind, Option.bind_some]
    rfl) ?_
  rw [(Logged.bind_ends_alike fun c hc => (writable_ofLetters hc).ends_dump _ _).1, ofLetters_derails_iff]

theorem diff_answered {request : Request} {fields : List (String × Json)} {old new : List Letter}
    (hasks : request.Asks .diff fields) (hold : requiredText? "old_sql" fields = some old)
    (hnew : requiredText? "new_sql" fields = some new) :
    Answered request
      (LettersDerail old ∨ (Catalog.ofLetters old "public").Ends ∧ LettersDerail new) := by
  obtain ⟨manner, hmanner⟩ := Option.isSome_iff_exists.mp hasks.manner
  refine answered_of_script hasks (.inr rfl) (by
    simp only [Route.script?, hasks.body, hmanner, hold, hnew, Option.bind_eq_bind,
      Option.bind_some]
    rfl) ?_
  have hrest (oldCatalog : Catalog) : (do
      let newCatalog ← Catalog.ofLetters new "public"
      oldCatalog.diff newCatalog manner.target manner.withHeadings : Logged String).Derails ↔
        LettersDerail new := by
    rw [(Logged.bind_ends_alike fun c hc => (writable_ofLetters hc).ends_diff _ _ _).1,
      ofLetters_derails_iff]
  rw [derails_bind_iff, ofLetters_derails_iff]
  simp only [hrest, Logged.Ends, exists_and_right]

end Service

/-! ## The command line -/

/-- The text of a source that is made of scripts. -/
def Source.scripts? (files : Files) : Source → Option (Except Fault String)
  | script path => some (files.read path)
  | directory path tree => some (
    match tree.scripts with
    | [] => .error (.noSqlFiles path)
    | scripts => .ok (joined scripts))
  | text sql => some (.ok sql)
  | database | stored _ => none

/-- The text that a word stands for, if it stands for scripts. -/
def wordText? (files : Files) (word : String) : Option (Except Fault String) :=
  (Source.ofWord? files word).bind (·.scripts? files)

variable {files : Files} {word : String} {text : Except Fault String}

theorem ofSource_of_wordText (h : wordText? files word = some text) (answer : Logged Catalog)
    (default : String) : Catalog.ofSource files answer default word =
      Logged.ofResult text >>= fun sql => Catalog.ofSql sql default := by
  obtain ⟨source, hsource, htext⟩ := Option.bind_eq_some_iff.mp h
  unfold Catalog.ofSource
  rw [hsource]
  cases source with
  | database => contradiction
  | stored path => contradiction
  | script path =>
    obtain rfl := Option.some.inj htext
    rfl
  | directory path tree =>
    obtain rfl := Option.some.inj htext
    dsimp only [Source.load]
    cases tree.scripts <;> rfl
  | text sql =>
    obtain rfl := Option.some.inj htext
    rfl

theorem gives_read (files : Files) (path : String) : Gives (fun _ => True) (files.read path) := by
  unfold Files.read Files.readRaw
  split
  · exact trivial
  · rfl
  · rfl

theorem gives_of_wordText (h : wordText? files word = some text) : Gives (fun _ => True) text := by
  obtain ⟨source, -, htext⟩ := Option.bind_eq_some_iff.mp h
  cases source with
  | database => contradiction
  | stored path => contradiction
  | script path =>
    obtain rfl := Option.some.inj htext
    exact gives_read files path
  | directory path tree =>
    obtain rfl := Option.some.inj htext
    split
    · rfl
    · exact trivial
  | text sql =>
    obtain rfl := Option.some.inj htext
    exact trivial

/-- There is a text, and it derails as a script. -/
def ReadDerails (text : Except Fault String) : Prop :=
  ∃ sql, text = .ok sql ∧ TextDerails "public" sql

/-- There is a text, and it describes a catalog. -/
def ReadEnds (text : Except Fault String) : Prop :=
  ∃ sql, text = .ok sql ∧ (Catalog.ofSql sql "public").Ends

theorem ofSource_derails_iff (h : wordText? files word = some text) (answer : Logged Catalog) :
    (Catalog.ofSource files answer "public" word).Derails ↔ ReadDerails text := by
  rw [ofSource_of_wordText h, derails_bind_iff, or_iff_right (not_derails_of_gives (gives_of_wordText h))]
  exact exists_congr fun sql => and_congr_right fun _ => Effect.ofSql_derails_iff

theorem ofSource_ends_iff (h : wordText? files word = some text) (answer : Logged Catalog) :
    (Catalog.ofSource files answer "public" word).Ends ↔ ReadEnds text := by
  rw [ofSource_of_wordText h, ends_bind_iff]
  rfl

theorem writable_ofSource (h : wordText? files word = some text) {answer : Logged Catalog}
    {default : String} {c : Catalog}
    (hc : (Catalog.ofSource files answer default word).result = .ok c) : c.Writable := by
  rw [ofSource_of_wordText h] at hc
  obtain ⟨sql, -, hc⟩ := Logged.result_bind_eq_ok.mp hc
  exact Effect.writable_ofSql hc

/-! ### What the rules leave -/

theorem IgnoreRules.writable_filterSchema {s : Schema} (h : s.Writable) (rules : IgnoreRules) :
    (rules.filterSchema s).Writable :=
  { h with
    tables := Entries.all_filter h.tables
    views := Entries.all_filter h.views
    functions := Entries.all_filter h.functions
    procedures := Entries.all_filter h.procedures
    types := Entries.all_filter h.types
    typeNames := Entries.all_filter h.typeNames
    sequences := Entries.all_filter h.sequences }

theorem Catalog.Writable.without {c : Catalog} (h : c.Writable) (rules : IgnoreRules) :
    (c.without rules).Writable :=
  { h with
    schemas := fun entry he => by
      obtain ⟨entry, hentry, rfl⟩ := List.mem_map.mp he
      exact rules.writable_filterSchema (h.schemas entry hentry) }

/-- Rules take objects away and never fail at it. -/
theorem Catalog.Writable.exists_ignoring {c : Catalog} (h : c.Writable) (rules : Option IgnoreRules) :
    ∃ left, (c.ignoring rules).result = .ok left ∧ left.Writable := by
  cases rules with
  | none => exact ⟨c, rfl, h⟩
  | some rules => exact ⟨c.without rules, rfl, h.without rules⟩

/-! ### Runs -/

namespace CommandLine

variable {answer : List String → Logged Catalog} {invocation : Invocation}

/-- After the source all is up to the rules. -/
theorem ignoring_outcome {c : Catalog} (h : c.Writable) (notice : String) :
    ((do
      Logged.info notice
      c.ignoring (← IgnoreRules.find files invocation.ignoreFile) : Logged Catalog).Derails ↔
        (IgnoreRules.find files invocation.ignoreFile).Derails) ∧
    ((do
      Logged.info notice
      c.ignoring (← IgnoreRules.find files invocation.ignoreFile) : Logged Catalog).Ends ↔
        (IgnoreRules.find files invocation.ignoreFile).Ends) :=
  Logged.bind_ends_alike fun rules _ => (h.exists_ignoring rules).imp fun _ hleft => hleft.1

theorem loadCatalog_derails_iff (h : wordText? files word = some text) :
    (loadCatalog files answer invocation word).Derails ↔
      ReadDerails text ∨ ReadEnds text ∧ (IgnoreRules.find files invocation.ignoreFile).Derails := by
  unfold loadCatalog
  dsimp only
  rw [derails_bind_iff, ofSource_derails_iff h, ← ofSource_ends_iff h]
  refine or_congr_right ⟨?_, ?_⟩
  · rintro ⟨c, hc, hderails⟩
    exact ⟨⟨c, hc⟩, (ignoring_outcome (writable_ofSource h hc) _).1.mp hderails⟩
  · rintro ⟨⟨c, hc⟩, hderails⟩
    exact ⟨c, hc, (ignoring_outcome (writable_ofSource h hc) _).1.mpr hderails⟩

theorem loadCatalog_ends_iff (h : wordText? files word = some text) :
    (loadCatalog files answer invocation word).Ends ↔
      ReadEnds text ∧ (IgnoreRules.find files invocation.ignoreFile).Ends := by
  unfold loadCatalog
  dsimp only
  rw [ends_bind_iff, ← ofSource_ends_iff h]
  constructor
  · rintro ⟨c, hc, hends⟩
    exact ⟨⟨c, hc⟩, (ignoring_outcome (writable_ofSource h hc) _).2.mp hends⟩
  · rintro ⟨⟨c, hc⟩, hends⟩
    exact ⟨c, hc, (ignoring_outcome (writable_ofSource h hc) _).2.mpr hends⟩

theorem writable_loadCatalog (h : wordText? files word = some text) {c : Catalog}
    (hc : (loadCatalog files answer invocation word).result = .ok c) : c.Writable := by
  obtain ⟨whole, hwhole, hc⟩ := Logged.result_bind_eq_ok.mp hc
  obtain ⟨_, -, hc⟩ := Logged.result_bind_eq_ok.mp hc
  obtain ⟨rules, -, hc⟩ := Logged.result_bind_eq_ok.mp hc
  obtain ⟨left, hleft, hwritable⟩ := (writable_ofSource h hwhole).exists_ignoring rules
  obtain rfl := Except.ok.inj (hleft.symm.trans hc)
  exact hwritable

/-- A script can be put where it belongs, or the place is to blame. -/
theorem not_derails_deliver (files : Files) (output : Option String) (text : String) :
    ¬ (deliver files output text).Derails := by
  unfold deliver
  split
  · exact Logged.Ends.not_derails ⟨_, rfl⟩
  · next path _ =>
    rw [derails_bind_iff]
    rintro (hwrite | ⟨left, -, hderails⟩)
    · refine not_derails_of_gives (P := fun _ => True) ?_ hwrite
      show Gives _ (files.write path text)
      unfold Files.write
      split
      · exact trivial
      · rfl
    · exact Logged.Ends.not_derails ⟨_, rfl⟩ hderails

/-- Only what derails a script ends a run without a report. -/
theorem run_error_iff : (∃ fault, invocation.run files answer = .error fault) ↔
    (script files answer invocation).Derails := by
  have hdeliver : (do deliver files invocation.output (← script files answer invocation)).Derails ↔
      (script files answer invocation).Derails := by
    rw [derails_bind_iff, or_iff_left]
    rintro ⟨text, -, hderails⟩
    exact not_derails_deliver _ _ _ hderails
  rw [← hdeliver]
  unfold Invocation.run Logged.Derails
  dsimp only
  split
  · next hok => simp [hok]
  · next fault hfault =>
    by_cases hinput : fault.isInput <;> simp [hfault, hinput]

theorem dump_error_iff (haction : invocation.action = .dump word) (h : wordText? files word = some text) :
    (∃ fault, invocation.run files answer = .error fault) ↔
      ReadDerails text ∨ ReadEnds text ∧ (IgnoreRules.find files invocation.ignoreFile).Derails := by
  have hscript : script files answer invocation = (do
      let catalog ← loadCatalog files answer invocation word
      catalog.dump invocation.schema invocation.comments) := by
    unfold script
    rw [haction]
  rw [run_error_iff, hscript, ← loadCatalog_derails_iff h]
  exact (Logged.bind_ends_alike fun c hc => (writable_loadCatalog h hc).ends_dump _ _).1

theorem diff_error_iff {old new : String} {oldText newText : Except Fault String}
    (haction : invocation.action = .diff old new) (hold : wordText? files old = some oldText)
    (hnew : wordText? files new = some newText) :
    (∃ fault, invocation.run files answer = .error fault) ↔ ReadDerails oldText ∨ ReadEnds oldText ∧
      ((IgnoreRules.find files invocation.ignoreFile).Derails ∨
        (IgnoreRules.find files invocation.ignoreFile).Ends ∧ ReadDerails newText) := by
  have hscript : script files answer invocation = (do
      let oldCatalog ← loadCatalog files answer invocation old
      let newCatalog ← loadCatalog files answer invocation new
      oldCatalog.diff newCatalog invocation.schema invocation.comments) := by
    unfold script
    rw [haction]
  have hrest (oldCatalog : Catalog) : (do
      let newCatalog ← loadCatalog files answer invocation new
      oldCatalog.diff newCatalog invocation.schema invocation.comments : Logged String).Derails ↔
        (loadCatalog files answer invocation new).Derails :=
    (Logged.bind_ends_alike fun c hc => (writable_loadCatalog hnew hc).ends_diff _ _ _).1
  have hends : (∃ c, (loadCatalog files answer invocation old).result = .ok c) ↔
      ReadEnds oldText ∧ (IgnoreRules.find files invocation.ignoreFile).Ends := loadCatalog_ends_iff hold
  -- where the older source loads, the rules were found, so only the newer text can still derail
  have hrules : (IgnoreRules.find files invocation.ignoreFile).Ends →
      ¬ (IgnoreRules.find files invocation.ignoreFile).Derails := Logged.Ends.not_derails
  rw [run_error_iff, hscript, derails_bind_iff]
  simp only [hrest, exists_and_right, hends, loadCatalog_derails_iff hold, loadCatalog_derails_iff hnew]
  tauto

end CommandLine

/-! ## All answers -/

/-- A script ends in a catalog or is refused, unless it derails, and every catalog of a script can be
written in every way; so an order for a dump or a diff fails, and a run on scripts ends without a report,
exactly if a script derails, or if the file with the rules is to blame for the latter. -/
theorem scripts_answered_iff (default sql : String) :
    ((Catalog.ofSql sql default).Derails ↔ TextDerails default sql) ∧
    (∀ c, (Catalog.ofSql sql default).result = .ok c → ∀ (old : Catalog) target withHeadings,
      (old.diff c target withHeadings).Ends ∧ (c.dump target withHeadings).Ends) ∧
    (∀ request fields letters, Service.Request.Asks request .dump fields →
      Service.requiredText? "sql" fields = some letters →
      Service.Answered request (LettersDerail letters)) ∧
    (∀ request fields old new, Service.Request.Asks request .diff fields →
      Service.requiredText? "old_sql" fields = some old →
      Service.requiredText? "new_sql" fields = some new →
      Service.Answered request
        (LettersDerail old ∨ (Catalog.ofLetters old "public").Ends ∧ LettersDerail new)) ∧
    (∀ files answer (invocation : CommandLine.Invocation) word text,
      invocation.action = .dump word → wordText? files word = some text →
      ((∃ fault, invocation.run files answer = .error fault) ↔ ReadDerails text ∨
        ReadEnds text ∧ (IgnoreRules.find files invocation.ignoreFile).Derails)) ∧
    (∀ files answer (invocation : CommandLine.Invocation) old new oldText newText,
      invocation.action = .diff old new → wordText? files old = some oldText →
      wordText? files new = some newText →
      ((∃ fault, invocation.run files answer = .error fault) ↔ ReadDerails oldText ∨
        ReadEnds oldText ∧ ((IgnoreRules.find files invocation.ignoreFile).Derails ∨
          (IgnoreRules.find files invocation.ignoreFile).Ends ∧ ReadDerails newText))) := by
  refine ⟨Effect.ofSql_derails_iff, fun c hc old target withHeadings => ?_,
    fun request fields letters => Service.dump_answered,
    fun request fields old new => Service.diff_answered,
    fun files answer invocation word text => CommandLine.dump_error_iff,
    fun files answer invocation old new oldText newText => CommandLine.diff_error_iff⟩
  have hwritable := Effect.writable_ofSql hc
  exact ⟨hwritable.ends_diff old target withHeadings, hwritable.ends_dump target withHeadings⟩

/-- A column is commented on, and no table is named. -/
def looseComment : String :=
  "comment on column c is 'x'"

/-- A comment as an order for a dump. -/
def dumpOrder : Service.Request where
  method := "POST"
  path := "/dump"
  body := some (.object [("sql", .text looseComment)])

/-- A comment as an order for what it adds to nothing. -/
def diffOrder : Service.Request where
  method := "POST"
  path := "/diff"
  body := some (.object [("old_sql", .text ""), ("new_sql", .text looseComment)])

theorem looseComment_unanswered :
    (Catalog.ofSql looseComment "public").Derails ∧
    (∃ c, (Catalog.ofSql "" "public").result = .ok c ∧ (c.dump none true).Ends) ∧
    (∃ response, (Service.respond dumpOrder).result = .ok response ∧ response.status = 500) ∧
    (∃ response, (Service.respond diffOrder).result = .ok response ∧ response.status = 500) ∧
    (∃ fault, CommandLine.Invocation.run {} (fun _ => .fail .unknownName)
      { action := .dump looseComment } = .error fault) ∧
    (∃ fault, CommandLine.Invocation.run {} (fun _ => .fail .unknownName)
      { action := .diff looseComment looseComment } = .error fault) := by
  obtain ⟨hread, -, hdump, hdiff, hrun, hrunDiff⟩ := scripts_answered_iff "public" looseComment
  obtain ⟨-, hwrite, -⟩ := scripts_answered_iff "public" ""
  have hstatements (sql : String) (all : List Sql.Statement)
      (h : (Sql.statements sql).toOption = some all) : Sql.statements sql = .ok all := by
    rcases hsql : Sql.statements sql with flaw | found
    · simp [hsql, Except.toOption] at h
    · rw [hsql] at h
      exact congrArg _ (Option.some.inj h)
  have hderails : TextDerails "public" looseComment :=
    ⟨[.comment .column ["c"] (some "x")], hstatements _ _ (by decide +kernel),
      .inl ⟨[], _, [], rfl, rfl, by simp⟩⟩
  have hempty : (Catalog.ofSql "" "public").Ends :=
    ⟨_, by rw [Catalog.ofSql_of_ok (hstatements "" [] (by decide +kernel))]; rfl⟩
  have hletters : LettersDerail (Letter.ofText looseComment) := ⟨rfl, hderails⟩
  have hword : wordText? {} looseComment = some (.ok looseComment) := rfl
  refine ⟨hread.mpr hderails, ?_, ?_, ?_, ?_, ?_⟩
  · obtain ⟨c, hc⟩ := hempty
    exact ⟨c, hc, (hwrite c hc {} none true).2⟩
  · obtain ⟨response, hresponse, -, hfails⟩ :=
      hdump dumpOrder _ (Letter.ofText looseComment) ⟨rfl, rfl, rfl, rfl⟩ rfl
    exact ⟨response, hresponse, hfails.mpr hletters⟩
  · obtain ⟨response, hresponse, -, hfails⟩ := hdiff diffOrder _ (Letter.ofText "")
      (Letter.ofText looseComment) ⟨rfl, rfl, rfl, rfl⟩ rfl rfl
    exact ⟨response, hresponse, hfails.mpr (.inr ⟨hempty, hletters⟩)⟩
  · exact (hrun {} _ _ looseComment _ rfl hword).mpr (.inl ⟨_, rfl, hderails⟩)
  · exact (hrunDiff {} _ _ looseComment looseComment _ _ rfl hword hword).mpr
      (.inl ⟨_, rfl, hderails⟩)

end SchemaScript
