import SchemaScript.Catalog.Object
import SchemaScript.Sql.Name

/-!
# Pieces of a script, and how they are written

A script is made of pieces, which a sink puts one after another.
-/

/-!
## Pieces of a script

A script is a list of statements, each with the object it is there for and the heading it can be
given.
-/

namespace SchemaScript

/-- The kinds of objects that a schema keeps by name. -/
inductive ObjectKind
  | type
  | sequence
  | table
  | view
  | function
  | aggregate
  | procedure
  deriving DecidableEq, Repr

/-- The object because of which a statement is written, by the names under which it is kept. -/
inductive Tag
  | extension (key : String)
  | schema (key : String)
  | object (schema : String) (kind : ObjectKind) (key : String)
  deriving DecidableEq, Repr

inductive PieceKind
  | extension
  | schema
  | type
  | domain
  | sequence
  | table
  | tableAttach
  | index
  | indexAttach
  | constraint
  | trigger
  | policy
  | view
  | materializedView
  | function
  | aggregate
  | procedure
  deriving DecidableEq, Repr

def PieceKind.label : PieceKind → String
  | extension => "EXTENSION"
  | schema => "SCHEMA"
  | type => "TYPE"
  | domain => "DOMAIN"
  | sequence => "SEQUENCE"
  | table => "TABLE"
  | tableAttach => "TABLE ATTACH"
  | index => "INDEX"
  | indexAttach => "INDEX ATTACH"
  | constraint => "CONSTRAINT"
  | trigger => "TRIGGER"
  | policy => "POLICY"
  | view => "VIEW"
  | materializedView => "MATERIALIZED VIEW"
  | function => "FUNCTION"
  | aggregate => "AGGREGATE"
  | procedure => "PROCEDURE"

structure Piece where
  tag : Tag
  kind : PieceKind
  name : String
  /-- The schema as the heading shows it. -/
  schema : String
  owner : Option String := none
  text : String
  deriving DecidableEq, Repr

/-!
## Writing a script

A sink takes text at its end. Statements are set apart by one blank line and, on request, come with a
heading of comment lines.
-/

structure Sink where
  withHeadings : Bool := true
  written : String := ""
  deriving DecidableEq, Repr

namespace Sink

def write (sink : Sink) (text : String) : Sink :=
  { sink with written := sink.written ++ text }

/-- Leaves a line end after whatever was written last. -/
def separate (sink : Sink) : Sink :=
  if sink.written == "" then sink else sink.write "\n"

/-- The comment lines above a statement. -/
def heading (kind name schema : String) (owner : Option String) : String :=
  "--\n-- Name: " ++ name ++ "; Type: " ++ kind ++ "; Schema: " ++ schema ++ "; Owner: " ++
    Text.givenOr owner "-" ++ "\n--\n\n"

def statement (sink : Sink) (kind name schema : String) (owner : Option String) (text : String) :
    Sink :=
  sink.write ((if sink.withHeadings then heading kind name schema owner else "") ++ text ++ "\n")

/-- The comment lines that tell where the script comes from. -/
def provenance (m : Metadata) : String :=
  "--\n-- PostgreSQL database dump\n--\n\n-- Dumped from database version " ++
    m.databaseVersion.spelled ++ "\n-- Dumped by " ++ m.dumpVersion.spelled ++ "\n"

def writeProvenance (sink : Sink) (m : Metadata) : Sink :=
  sink.write (provenance m)

def piece (sink : Sink) (p : Piece) : Sink :=
  sink.separate.statement p.kind.label p.name p.schema p.owner p.text

end Sink

/-- The text of a script, with headings on request. -/
def renderPieces (withHeadings : Bool) (m : Metadata) (pieces : List Piece) : String :=
  let sink : Sink := { withHeadings }
  (pieces.foldl Sink.piece (if withHeadings then sink.writeProvenance m else sink)).written

end SchemaScript
