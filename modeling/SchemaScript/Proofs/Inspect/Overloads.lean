import SchemaScript.Proofs.Inspect.AnyOrder

/-!
# Reported overloads

Of all routines of a kind that a database reports under one name a catalog keeps the first one as it is. Each of the
others is told in the log, and nothing else is told there as a warning (`keepsFirst_ofDatabase`). This holds for rows in
any order, with any other rows among them.
-/

namespace SchemaScript

/-! ## Names of routines -/

/-- A kind of objects of which several can have one name, told apart by their arguments. -/
inductive RoutineKind
  | function
  | procedure
  | aggregate
  deriving DecidableEq, Repr

namespace RoutineKind

def objectKind : RoutineKind → ObjectKind
  | function => .function
  | procedure => .procedure
  | aggregate => .aggregate

def word : RoutineKind → String
  | function => "Function"
  | procedure => "Procedure"
  | aggregate => "Aggregate"

end RoutineKind

/-- The name that all overloads of a routine have in common. -/
structure RoutineName where
  kind : RoutineKind
  schema : String
  name : String
  deriving DecidableEq, Repr

def RoutineName.tag (r : RoutineName) : Tag :=
  .object r.schema r.kind.objectKind r.name

/-- What a routine is called together with its arguments; nothing else has such a name. -/
def Content.identity : Content → String
  | .function f => f.identity
  | .procedure p => p.identity
  | .aggregate a => a.identity
  | _ => ""

/-- What the log tells of a routine that is left out because of the one that is kept. -/
def overloadWarning (left : RoutineName × Content) : LogEntry :=
  ⟨.warning, left.1.kind.word ++ " " ++ left.1.schema ++ "." ++ left.1.name ++ " is overloaded; keeping " ++
    left.2.identity⟩

def LogEntry.isWarning (entry : LogEntry) : Bool :=
  entry.level == .warning

/-- For all routines that are found under one name but the first, the name and the one that is kept. -/
def overloads (r : RoutineName) : List Content → List (RoutineName × Content)
  | [] => []
  | first :: others => others.map fun _ => (r, first)

/-- Of what is found under one name the first is kept, and the log tells of each of the others and warns of nothing
else. -/
structure KeepsFirst (found : RoutineName → List Content) (kept : RoutineName → Option Content) (log : List LogEntry) :
    Prop where
  first : ∀ r, kept r = (found r).head?
  told : ∃ left : List (RoutineName × Content), log.filter (·.isWarning) = left.map overloadWarning ∧
    ∀ r, left.filter (·.1 = r) = overloads r (found r)

theorem overloads_concat (r : RoutineName) (found : List Content) (x : Content) :
    overloads r (found ++ [x]) = overloads r found ++ (found.head?.map (r, ·)).toList := by
  cases found <;> simp [overloads]

namespace Inspect

variable {c c' : Catalog} {t : Told} {r : RoutineName}

/-! ## Routines in rows -/

/-- The routine that a row leaves under the name by itself. -/
def Told.routine? (t : Told) (r : RoutineName) : Option Content :=
  (t.read {}).result.toOption.bind (·.at? r.tag)

/-- The routines that are reported under the name, in the order in which they are read. -/
def reported (rows : List Told) (r : RoutineName) : List Content :=
  rows.filterMap (·.routine? r)

/-! ## Rows that tell nothing -/

theorem log_bind_eq_nil {α β : Type} {x : Logged α} {f : α → Logged β} (hx : x.log = []) (hf : ∀ a, (f a).log = []) :
    (x >>= f).log = [] := by
  rcases hresult : x.result with fault | a
  · rw [Logged.bind_of_error hresult]
    exact hx
  · rw [Logged.bind_of_ok hresult, hx, hf]
    rfl

theorem log_atTable (c : Catalog) (schema table : Json) (f : Table → Except Fault Table) :
    (atTable c schema table f).log = [] := by
  unfold atTable
  split
  · rfl
  · exact log_bind_eq_nil rfl fun _ => rfl

theorem log_atType (c : Catalog) (schema type : Json) (f : UserType → Except Fault UserType) :
    (atType c schema type f).log = [] := by
  unfold atType
  split
  · rfl
  · exact log_bind_eq_nil rfl fun _ => rfl

/-- Only rows about routines tell anything. -/
theorem log_row {q : Query} (hroutines : q ≠ .routines) (haggregates : q ≠ .aggregates) (c : Catalog) (row : Row) :
    (q.row c row).log = [] := by
  cases q with
  | routines | aggregates => contradiction
  | version => rfl
  | schemas =>
    show (schemaRow c row).log = []
    fun_cases schemaRow c row <;> rfl
  | extensions =>
    show (extensionRow c row).log = []
    fun_cases extensionRow c row <;> rfl
  | tables =>
    show (tableRow c row).log = []
    fun_cases tableRow c row
    · exact log_bind_eq_nil rfl fun _ => rfl
    · rfl
  | columns =>
    show (columnRow c row).log = []
    fun_cases columnRow c row
    · exact log_atTable ..
    · rfl
  | constraints =>
    show (constraintRow c row).log = []
    fun_cases constraintRow c row
    · exact log_atTable ..
    · rfl
  | indexes =>
    show (indexRow c row).log = []
    fun_cases indexRow c row
    · exact log_atTable ..
    · rfl
  | sequences =>
    show (sequenceRow c row).log = []
    fun_cases sequenceRow c row
    · exact log_bind_eq_nil rfl fun _ => log_bind_eq_nil rfl fun _ => log_bind_eq_nil rfl fun _ => rfl
    · rfl
  | views =>
    show (viewRow c row).log = []
    fun_cases viewRow c row
    · exact log_bind_eq_nil rfl fun _ => rfl
    · rfl
  | types =>
    show (typeRow c row).log = []
    fun_cases typeRow c row
    · exact log_bind_eq_nil rfl fun _ => log_bind_eq_nil rfl fun _ => rfl
    · rfl
  | members =>
    show (memberRow c row).log = []
    fun_cases memberRow c row
    · exact log_atType ..
    · rfl
  | domainConstraints =>
    show (domainConstraintRow c row).log = []
    fun_cases domainConstraintRow c row
    · exact log_atType ..
    · rfl
  | triggers =>
    show (triggerRow c row).log = []
    fun_cases triggerRow c row
    · exact log_atTable ..
    · rfl
  | policies =>
    show (policyRow c row).log = []
    fun_cases policyRow c row
    · exact log_atTable ..
    · rfl
  | partitions =>
    show (partitionRow c row).log = []
    fun_cases partitionRow c row <;> rfl

/-! ## One row -/

/-- The row reports this routine, if any: it is left under its name by itself, in a catalog it is left there if the name
is free, and else the log tells of it. -/
structure Told.Reports (t : Told) (entry : Option (RoutineName × Content)) : Prop where
  alone : ∀ r, t.routine? r = (entry.filter (·.1 = r)).map (·.2)
  read : ∀ c c', (t.read c).result = .ok c' →
    (∀ r, c'.at? r.tag = (c.at? r.tag).or (t.routine? r)) ∧
    (t.read c).log = (entry.bind fun e => (c.at? e.1.tag).map fun kept => overloadWarning (e.1, kept)).toList

theorem routine?_of_ok (h : (t.read {}).result = .ok c) : t.routine? r = c.at? r.tag := by
  unfold Told.routine?
  rw [h]
  rfl

theorem routine?_of_error {fault : Fault} (h : (t.read {}).result = .error fault) : t.routine? r = none := by
  unfold Told.routine?
  rw [h]
  rfl

theorem reports_nothing (hat : ∀ c c' (r : RoutineName), (t.read c).result = .ok c' →
    c'.at? r.tag = c.at? r.tag) (hlog : ∀ c, (t.read c).log = []) : t.Reports none := by
  have halone (r : RoutineName) : t.routine? r = none := by
    cases hrun : (t.read {}).result with
    | error fault => exact routine?_of_error hrun
    | ok c => exact (routine?_of_ok hrun).trans (hat {} c r hrun)
  refine ⟨halone, fun c c' h => ⟨fun r => ?_, hlog c⟩⟩
  rw [hat c c' r h, halone r, Option.or_none]

theorem reports_of_fails {e : Fault} (h : ∀ c, t.read c = .fail e) : t.Reports none :=
  reports_nothing (fun c c' _ hok => by rw [h c] at hok; contradiction) fun c => by rw [h c]; rfl

/-- Catalogs with the same routines have the same under the name of any routine. -/
theorem at?_of_agreeOn (h : Part.AgreeOn (.inSchema .routines) c c') (h' : Part.AgreeOn (.inSchema .aggregates) c c')
    (r : RoutineName) : c'.at? r.tag = c.at? r.tag := by
  obtain ⟨kind, schema, name⟩ := r
  obtain ⟨hfunctions, hprocedures⟩ := Prod.mk.inj (h schema)
  have haggregates : (c.schemaOrNew schema).aggregates = (c'.schemaOrNew schema).aggregates := h' schema
  unfold RoutineName.tag
  rw [← Catalog.at?_schemaOrNew_object, ← Catalog.at?_schemaOrNew_object]
  cases kind with
  | function => exact congrArg (fun e => (e.get? name).map Content.function) hfunctions.symm
  | procedure => exact congrArg (fun e => (e.get? name).map Content.procedure) hprocedures.symm
  | aggregate => exact congrArg (fun e => (e.get? name).map Content.aggregate) haggregates.symm

/-- Rows that belong to other parts of a catalog leave its routines alone. -/
theorem at?_of_other {p : Part} (hp : t.1 ∈ p.queries) (hroutines : p ≠ .inSchema .routines)
    (haggregates : p ≠ .inSchema .aggregates) (h : (t.read c).result = .ok c') (r : RoutineName) :
    c'.at? r.tag = c.at? r.tag := by
  obtain ⟨change, hchange⟩ := confined_row hp t.2
  have hothers := (Change.keeps ((hchange c).1.symm.trans h)).2
  exact at?_of_agreeOn (hothers _ hroutines.symm) (hothers _ haggregates.symm) r

theorem at?_tableRow {row : Row} (h : (tableRow c row).result = .ok c') (r : RoutineName) :
    c'.at? r.tag = c.at? r.tag := by
  unfold tableRow at h
  split at h
  · next schema name kind persistence comment rowSecurity key =>
    dsimp only at h
    cases hwritten : (Logged.ofResult (if Cell.isWord "p" kind && Cell.isSet key then Cell.letters key else
      .ok "") : Logged String).result with
    | error fault =>
      rw [Logged.bind_of_error hwritten] at h
      contradiction
    | ok written =>
      rw [Logged.bind_of_ok hwritten] at h
      obtain rfl := Except.ok.inj h
      obtain ⟨routine, holder, key⟩ := r
      rw [RoutineName.tag, Catalog.at?_updateSchema]
      dsimp only
      by_cases hholder : holder = Cell.name schema
      · subst hholder
        rw [if_pos rfl, ← Catalog.at?_schemaOrNew_object]
        cases routine <;> rfl
      · rw [if_neg hholder]
  · contradiction

theorem get?_keepFirst {α : Type} (key n : String) (value : α) (entries : Entries α) :
    (keepFirst key value entries).get? n = (entries.get? n).or (if key = n then some value else none) := by
  unfold keepFirst Entries.contains
  by_cases hn : key = n
  · subst hn
    cases hget : entries.get? key with
    | none => simp [Entries.get?_put]
    | some kept => simp [hget]
  · rw [if_neg hn, Option.or_none, apply_ite (fun e : Entries α => e.get? n), Entries.get?_put, if_neg (Ne.symm hn),
      ite_self]

theorem log_putFirst {α : Type} (word : String) (identity : α → String) (schema name : Json) (entries : Entries α)
    (value : α) :
    (putFirst word identity schema name entries value).log = ((entries.get? (Cell.name name)).map fun kept =>
      ⟨.warning, word ++ " " ++ Cell.name schema ++ "." ++ Cell.name name ++ " is overloaded; keeping " ++
        identity kept⟩).toList := by
  unfold putFirst
  cases entries.get? (Cell.name name) <;> rfl

/-- Only a free name takes a routine; else the log tells of it. -/
theorem reports_putFirst {α : Type} (lens : Lens Schema (Entries α)) (content : α → Content) (kind : RoutineKind)
    (identity : α → String) (schema name : Json) (value : α)
    (hidentity : ∀ a, (content a).identity = identity a)
    (hat : ∀ s e (k : RoutineKind) key, (lens.set e s).at? k.objectKind key =
      if k = kind then (e.get? key).map content else s.at? k.objectKind key)
    (hread : ∀ c, t.read c =
      putFirst kind.word identity schema name (lens.get (c.schemaOrNew (Cell.name schema))) value >>=
        fun entries => pure (c.updateSchema (Cell.name schema) (lens.set entries))) :
    t.Reports (some (⟨kind, Cell.name schema, Cell.name name⟩, content value)) := by
  have hfound (s : Schema) (key : String) : s.at? kind.objectKind key = ((lens.get s).get? key).map content := by
    have := hat s (lens.get s) kind key
    rwa [lens.set_get, if_pos rfl] at this
  have hresult (c : Catalog) : (t.read c).result = .ok (c.updateSchema (Cell.name schema)
      (lens.set (keepFirst (Cell.name name) value (lens.get (c.schemaOrNew (Cell.name schema)))))) := by
    rw [hread, Logged.bind_of_ok (result_putFirst ..)]
    rfl
  have hafter (c c' : Catalog) (h : (t.read c).result = .ok c') (r : RoutineName) : c'.at? r.tag =
      (c.at? r.tag).or (if ⟨kind, Cell.name schema, Cell.name name⟩ = r then some (content value) else none) := by
    obtain rfl := Except.ok.inj ((hresult c).symm.trans h)
    obtain ⟨k, holder, key⟩ := r
    rw [RoutineName.tag, Catalog.at?_updateSchema]
    dsimp only
    by_cases hholder : holder = Cell.name schema
    · subst hholder
      rw [if_pos rfl, hat, ← Catalog.at?_schemaOrNew_object]
      by_cases hk : k = kind
      · subst hk
        rw [if_pos rfl, get?_keepFirst, hfound]
        by_cases hkey : Cell.name name = key
        · subst hkey
          cases (lens.get (c.schemaOrNew (Cell.name schema))).get? (Cell.name name) <;> simp
        · simp [hkey]
      · simp [hk, Ne.symm hk]
    · simp [hholder, Ne.symm hholder]
  have halone (r : RoutineName) : t.routine? r =
      if ⟨kind, Cell.name schema, Cell.name name⟩ = r then some (content value) else none := by
    rw [routine?_of_ok (hresult {}), hafter _ _ (hresult {})]
    rfl
  refine ⟨fun r => ?_, fun c c' h => ⟨fun r => ?_, ?_⟩⟩
  · rw [halone, Option.filter_some]
    by_cases hr : (⟨kind, Cell.name schema, Cell.name name⟩ : RoutineName) = r <;> simp [hr]
  · rw [halone, hafter c c' h]
  · rw [hread, Logged.bind_of_ok (result_putFirst ..), log_putFirst, Option.bind_some, RoutineName.tag,
      ← Catalog.at?_schemaOrNew_object, hfound]
    simp [overloadWarning, hidentity, Function.comp_def]

theorem read_routines (c : Catalog) (row : Row) : Told.read c (.routines, row) = routineRow c row := rfl

theorem read_aggregates (c : Catalog) (row : Row) : Told.read c (.aggregates, row) = aggregateRow c row := rfl

theorem exists_reports_routineRow (row : Row) : ∃ entry, Told.Reports (.routines, row) entry := by
  fun_cases routineRow {} row with
  | case1 schema name kind language arguments signature result body volatility strict definer comment owner hkind
      procedure =>
    refine ⟨some (⟨.procedure, Cell.name schema, Cell.name name⟩, .procedure procedure), reports_putFirst
      ⟨Schema.procedures, fun a s => { s with procedures := a }, fun _ _ => rfl, fun _ => rfl, fun _ _ _ => rfl⟩
      .procedure .procedure Procedure.identity schema name procedure (fun _ => rfl) ?_ fun c => ?_⟩
    · intro s e k key
      cases k <;> rfl
    · simp only [read_routines, routineRow, if_pos hkind]
      rfl
  | case2 schema name kind language arguments signature result body volatility strict definer comment owner hkind
      function =>
    refine ⟨some (⟨.function, Cell.name schema, Cell.name name⟩, .function function), reports_putFirst
      ⟨Schema.functions, fun a s => { s with functions := a }, fun _ _ => rfl, fun _ => rfl, fun _ _ _ => rfl⟩
      .function .function StoredFunction.identity schema name function (fun _ => rfl) ?_ fun c => ?_⟩
    · intro s e k key
      cases k <;> rfl
    · simp only [read_routines, routineRow, if_neg hkind]
      rfl
  | case3 row h => exact ⟨none, reports_of_fails fun c => routineRow.eq_2 c row h⟩

theorem exists_reports_aggregateRow (row : Row) : ∃ entry, Told.Reports (.aggregates, row) entry := by
  fun_cases aggregateRow {} row with
  | case1 schema name arguments result transition transitionSchema state initial final finalSchema comment =>
    cases htype : Cell.type state with
    | error fault =>
      refine ⟨none, reports_of_fails (e := fault) fun c => ?_⟩
      simp only [read_aggregates, aggregateRow, htype]
      rfl
    | ok type =>
      refine ⟨_, reports_putFirst SchemaPart.aggregates.lens .aggregate .aggregate Aggregate.identity schema name
        ?aggregate (fun _ => rfl) ?single fun c => ?written⟩
      case written =>
        simp only [read_aggregates, aggregateRow, htype]
        rfl
      case single =>
        intro s e k key
        cases k <;> rfl
  | case2 row h => exact ⟨none, reports_of_fails fun c => aggregateRow.eq_2 c row h⟩

theorem exists_reports (t : Told) : ∃ entry, t.Reports entry := by
  obtain ⟨query, row⟩ := t
  have hother {p : Part} (hp : query ∈ p.queries) (hroutines : p ≠ .inSchema .routines)
      (haggregates : p ≠ .inSchema .aggregates) (hlog : ∀ c, (query.row c row).log = []) :
      ∃ entry, Told.Reports (query, row) entry :=
    ⟨none, reports_nothing (fun _ _ r h => at?_of_other hp hroutines haggregates h r) hlog⟩
  by_cases hroutines : query = .routines
  · subst hroutines
    exact exists_reports_routineRow row
  by_cases haggregates : query = .aggregates
  · subst haggregates
    exact exists_reports_aggregateRow row
  have hlog (c : Catalog) := log_row hroutines haggregates c row
  cases query with
  | routines | aggregates => contradiction
  | version =>
    refine ⟨none, reports_nothing (fun c c' r h => ?_) hlog⟩
    obtain rfl := Except.ok.inj h
    rfl
  | tables => exact ⟨none, reports_nothing (fun c c' r h => at?_tableRow h r) hlog⟩
  | schemas => exact hother (p := .inSchema .owner) (by decide) (by decide) (by decide) hlog
  | extensions => exact hother (p := .extensions) (by decide) (by decide) (by decide) hlog
  | columns => exact hother (p := .inTable .columns) (by decide) (by decide) (by decide) hlog
  | constraints => exact hother (p := .inTable .constraints) (by decide) (by decide) (by decide) hlog
  | indexes => exact hother (p := .inTable .indexes) (by decide) (by decide) (by decide) hlog
  | sequences => exact hother (p := .inSchema .sequences) (by decide) (by decide) (by decide) hlog
  | views => exact hother (p := .inSchema .views) (by decide) (by decide) (by decide) hlog
  | types | members | domainConstraints =>
    exact hother (p := .inSchema .types) (by decide) (by decide) (by decide) hlog
  | triggers => exact hother (p := .inTable .triggers) (by decide) (by decide) (by decide) hlog
  | policies => exact hother (p := .inTable .policies) (by decide) (by decide) (by decide) hlog
  | partitions => exact hother (p := .partitions) (by decide) (by decide) (by decide) hlog

/-! ## All rows -/

/-- One more row leaves the routine that is kept as it is. -/
theorem keepsFirst_read {found : RoutineName → List Content} {log : List LogEntry}
    (h : KeepsFirst found (c.at? ·.tag) log) (hread : (t.read c).result = .ok c') :
    KeepsFirst (fun r => found r ++ (t.routine? r).toList) (c'.at? ·.tag) (log ++ (t.read c).log) := by
  obtain ⟨entry, hreports⟩ := exists_reports t
  obtain ⟨hat, hlog⟩ := hreports.read c c' hread
  obtain ⟨left, hleft, hoverloads⟩ := h.told
  refine ⟨fun r => ?_, left ++ (entry.bind fun e => (c.at? e.1.tag).map (e.1, ·)).toList, ?_, fun r => ?_⟩
  · rw [hat, h.first, List.head?_append]
    cases t.routine? r <;> rfl
  · rw [List.filter_append, hleft, hlog, List.map_append]
    congr 1
    cases entry with
    | none => rfl
    | some e => cases hkept : c.at? e.1.tag <;> simp [hkept, overloadWarning, LogEntry.isWarning]
  · rw [List.filter_append, hoverloads, hreports.alone]
    cases entry with
    | none => simp
    | some e =>
      rw [Option.bind_some, h.first, Option.filter_some]
      by_cases hr : e.1 = r
      · subst hr
        simp only [decide_true, if_true, Option.map_some, Option.toList_some, overloads_concat]
        cases (found e.1).head? <;> simp
      · cases (found e.1).head? <;> simp [hr]

theorem keepsFirst_run {rows : List Told} (h : (rows.foldlM Told.read {}).result = .ok c) :
    KeepsFirst (reported rows) (c.at? ·.tag) (rows.foldlM Told.read {}).log := by
  induction rows using List.reverseRecOn generalizing c with
  | nil =>
    obtain rfl := Except.ok.inj h
    exact ⟨fun r => rfl, [], rfl, fun r => rfl⟩
  | append_singleton rows t ih =>
    rw [List.foldlM_append] at h ⊢
    cases hrows : (rows.foldlM Told.read {}).result with
    | error fault =>
      rw [Logged.bind_of_error hrows] at h
      contradiction
    | ok next =>
      rw [Logged.bind_of_ok hrows] at h ⊢
      have hone : [t].foldlM Told.read next = t.read next := by simp
      rw [hone] at h ⊢
      have hkeeps := keepsFirst_read (ih hrows) h
      have hreported : reported (rows ++ [t]) = fun r => reported rows r ++ (t.routine? r).toList := by
        funext r
        unfold reported
        rw [List.filterMap_append]
        cases hroutine : t.routine? r <;> simp [hroutine]
      rwa [hreported]

theorem keepsFirst_ofDatabase {names : List String} {answers : Query → List Row}
    (h : (Inspection.ofDatabase names (Query.all.map answers)).logged.result = .ok c) :
    KeepsFirst (reported (told answers Query.all)) (c.at? ·.tag)
      (Inspection.ofDatabase names (Query.all.map answers)).logged.log := by
  have hask := logged_ask names answers Query.all {}
  unfold Inspection.ofDatabase Inspection.logged at h ⊢
  unfold Inspection.logged at hask
  dsimp only at h ⊢
  cases hfault : (ask names {} Query.all (Query.all.map answers)).fault with
  | some fault =>
    simp only [hfault] at h
    contradiction
  | none =>
    simp only [hfault] at h hask ⊢
    have hrun := congrArg Logged.result hask
    obtain ⟨hfirst, left, htold, hleft⟩ := keepsFirst_run (hrun.symm.trans h)
    rw [← hask] at htold
    refine ⟨hfirst, left, ?_, hleft⟩
    rw [List.filter_append, htold]
    exact List.append_nil _

end Inspect
end SchemaScript
