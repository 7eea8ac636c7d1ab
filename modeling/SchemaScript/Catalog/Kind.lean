/-!
# Closed sets of kinds

Each has the words under which its members are stored.
-/

namespace SchemaScript

inductive TableKind
  | base
  | view
  | temporary
  deriving DecidableEq, Repr, Inhabited

def TableKind.all : List TableKind :=
  [base, view, temporary]

def TableKind.text : TableKind → String
  | base => "BASE_TABLE"
  | view => "VIEW"
  | temporary => "TEMPORARY"

inductive ConstraintKind
  | primaryKey
  | unique
  | foreignKey
  | check
  | exclusion
  deriving DecidableEq, Repr, Inhabited

def ConstraintKind.all : List ConstraintKind :=
  [primaryKey, unique, foreignKey, check, exclusion]

def ConstraintKind.text : ConstraintKind → String
  | primaryKey => "PRIMARY_KEY"
  | unique => "UNIQUE"
  | foreignKey => "FOREIGN_KEY"
  | check => "CHECK"
  | exclusion => "EXCLUSION"

inductive IndexKind
  | regular
  | primary
  | unique
  deriving DecidableEq, Repr, Inhabited

def IndexKind.all : List IndexKind :=
  [regular, primary, unique]

def IndexKind.text : IndexKind → String
  | regular => "REGULAR"
  | primary => "PRIMARY"
  | unique => "UNIQUE"

inductive Timing
  | before
  | after
  | insteadOf
  deriving DecidableEq, Repr, Inhabited

def Timing.all : List Timing :=
  [before, after, insteadOf]

def Timing.text : Timing → String
  | before => "BEFORE"
  | after => "AFTER"
  | insteadOf => "INSTEAD_OF"

/-- The words of a statement. -/
def Timing.sql : Timing → String
  | before => "BEFORE"
  | after => "AFTER"
  | insteadOf => "INSTEAD OF"

/-- What a trigger waits for, in the order in which statements list it. -/
inductive Event
  | insert
  | update
  | delete
  | truncate
  deriving DecidableEq, Repr, Inhabited

def Event.all : List Event :=
  [insert, update, delete, truncate]

def Event.text : Event → String
  | insert => "INSERT"
  | update => "UPDATE"
  | delete => "DELETE"
  | truncate => "TRUNCATE"

inductive Granularity
  | row
  | statement
  deriving DecidableEq, Repr, Inhabited

def Granularity.all : List Granularity :=
  [row, statement]

def Granularity.text : Granularity → String
  | row => "ROW"
  | statement => "STATEMENT"

inductive TypeKind
  | enum
  | composite
  | domain
  deriving DecidableEq, Repr, Inhabited

def TypeKind.all : List TypeKind :=
  [enum, composite, domain]

def TypeKind.text : TypeKind → String
  | enum => "ENUM"
  | composite => "COMPOSITE"
  | domain => "DOMAIN"

inductive PolicyCommand
  | all
  | select
  | insert
  | update
  | delete
  deriving DecidableEq, Repr, Inhabited

def PolicyCommand.every : List PolicyCommand :=
  [all, select, insert, update, delete]

def PolicyCommand.text : PolicyCommand → String
  | all => "ALL"
  | select => "SELECT"
  | insert => "INSERT"
  | update => "UPDATE"
  | delete => "DELETE"

end SchemaScript
