import SchemaScript.Inspect.Row
import SchemaScript.Text.Case

/-!
# Rows about tables

Tables, and what belongs to them: columns, constraints and indexes.
-/

namespace SchemaScript.Inspect

/-- A partition key splits into the strategy and what stands between the outer parentheses. -/
def partitionKey? (definition : String) : Option (String × String) :=
  let s := Text.trim definition.toList
  let strategy := s.takeWhile Text.isWordChar
  match strategy, Text.trimStart (s.dropWhile Text.isWordChar) with
  | _ :: _, '(' :: r =>
    if r.getLast? == some ')' then some (Text.upper (String.ofList strategy), String.ofList r.dropLast)
    else none
  | _, _ => none

def tableRow (catalog : Catalog) : Row → Logged Catalog
  | [schema, name, kind, persistence, comment, rowSecurity, key] => do
    let plain : Table := {
      schema := ⟨schema⟩
      name := ⟨name⟩
      kind := if Cell.isWord "t" persistence then .temporary else .base
      comment := ⟨comment⟩
      rowSecurity := Cell.isSet rowSecurity }
    let isPartitioned := Cell.isWord "p" kind && Cell.isSet key
    let written ← .ofResult (if isPartitioned then Cell.letters key else .ok "")
    let table : Table :=
      if isPartitioned then
        match partitionKey? written with
        | some (strategy, inner) =>
          { plain with isPartitioned := true, partitionStrategy := strategy, partitionKey := inner }
        | none => { plain with isPartitioned := true }
      else plain
    return catalog.updateSchema (Cell.name schema) fun s =>
      { s with tables := s.tables.put (Cell.name name) table }
  | row => .fail (widthFault 7 row)

/-- The type's own name; one of another schema is written with it. -/
def userTypeName (schema dataType typeSchema typeName : Json) : Field String :=
  if Cell.isWord "USER-DEFINED" dataType && Cell.isSet typeSchema && typeSchema != schema then
    typeSchema.plain ++ "." ++ typeName.plain
  else ⟨typeName⟩

def columnRow (catalog : Catalog) : Row → Logged Catalog
  | [schema, table, name, position, default, nullable, type, typeSchema, typeName, maxLength,
      precision, scale, comment, identity, generation, start, increment, maximum, minimum, cycle] =>
    atTable catalog schema table fun owner => do
      let dataType : Field String ←
        if Cell.isWord "ARRAY" type then Cell.type typeName else pure ⟨type⟩
      let ifNumeric (cell : Json) : Except Fault (Option Int) :=
        if dataType == ("numeric" : String) then Cell.integer? cell else .ok none
      let column : Column := {
        name := ⟨name⟩
        position := ← Cell.integer position
        dataType
        userType := userTypeName schema type typeSchema typeName
        nullable := Cell.saysYes nullable
        default := ⟨default⟩
        maxLength := ← Cell.integer? maxLength
        precision := ← ifNumeric precision
        scale := ← ifNumeric scale
        comment := ⟨comment⟩
        identity := {
          enabled := Cell.saysYes identity
          generation := ⟨generation⟩
          start := ← Cell.integer? start
          increment := ← Cell.integer? increment
          maximum := ← Cell.integer? maximum
          minimum := ← Cell.integer? minimum
          cycle := Cell.saysYes cycle } }
      return { owner with columns := owner.columns ++ [column] }
  | row => .fail (widthFault 20 row)

def constraintCodes : List (String × ConstraintKind) :=
  [("p", .primaryKey), ("u", .unique), ("f", .foreignKey), ("c", .check), ("x", .exclusion)]

/-- What a foreign key does when the row it refers to changes. -/
def actionCodes : List (String × String) :=
  [("a", "NO ACTION"), ("r", "RESTRICT"), ("c", "CASCADE"), ("n", "SET NULL"), ("d", "SET DEFAULT")]

/-- Columns in their order, from position one on. -/
def keyColumns (names : List Json) : List KeyColumn :=
  names.mapIdx fun i name => { name := ⟨name⟩, position := Int.ofNat (i + 1) }

def constraintRow (catalog : Catalog) : Row → Logged Catalog
  | [schema, table, name, code, columns, otherSchema, otherTable, otherColumns, check, onUpdate,
      onDelete, deferrable, deferred, comment] =>
    atTable catalog schema table fun owner => do
      let kind ← Cell.decodeKnown constraintCodes code
      let plain : Constraint := {
        schema := ⟨schema⟩
        table := ⟨table⟩
        name := ⟨name⟩
        kind
        columns := keyColumns (← Cell.items columns)
        condition := ⟨check⟩
        deferrable := Cell.isSet deferrable
        initiallyDeferred := Cell.isSet deferred
        comment := ⟨comment⟩ }
      let constraint : Constraint ←
        if kind == .foreignKey then do
          let referenced ← Cell.items otherColumns
          pure { plain with
            referencedSchema := ⟨otherSchema⟩
            referencedTable := ⟨otherTable⟩
            referencedColumns := keyColumns referenced
            onUpdate := Cell.decode actionCodes onUpdate
            onDelete := Cell.decode actionCodes onDelete }
        else pure plain
      return { owner with constraints := owner.constraints.put (Cell.name name) constraint }
  | row => .fail (widthFault 14 row)

def indexRow (catalog : Catalog) : Row → Logged Catalog
  | [schema, table, name, unique, primary, method, definition, predicate, comment] =>
    atTable catalog schema table fun owner =>
      let isUnique := Cell.isSet unique
      let isPrimary := Cell.isSet primary
      let index : Index := {
        schema := ⟨schema⟩
        table := ⟨table⟩
        name := ⟨name⟩
        kind := if isPrimary then .primary else if isUnique then .unique else .regular
        method := ⟨method⟩
        isUnique
        isPrimary
        isPartial := predicate != .null
        predicate := ⟨predicate⟩
        definition := ⟨definition⟩
        comment := ⟨comment⟩ }
      .ok { owner with indexes := owner.indexes.put (Cell.name name) index }
  | row => .fail (widthFault 9 row)

end SchemaScript.Inspect
