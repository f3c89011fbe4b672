import SchemaTransfer.Moment
import SchemaTransfer.Target.Emission
import SchemaTransfer.Text.Fixed

/-!
# The report on a conversion

Counts of the objects in a fixed order, the renames, and the warnings, each on one line.
-/
namespace SchemaTransfer

structure Report where
  moment : Moment
  input : String
  /-- In seconds. -/
  elapsed : Float
  tally : Tally
  renames : List Rename
  warnings : List String

namespace Report

def rule (c : Char) : String := String.ofList (List.replicate 80 c)

def heading (c : Char) (title : String) : List String := [rule c, title, rule c]

/-- A label of at least twenty characters and a number. -/
def countLine (label : String) (n : Nat) : String :=
  "  " ++ label ++ String.ofList (List.replicate (20 - label.length) ' ') ++ ": " ++ n.repr

def counts (t : Tally) : List String :=
  [countLine "tablespaces" t.tablespaces, countLine "roles" t.roles,
   countLine "schemas" t.schemas, countLine "sequences" t.sequences,
   countLine "domains" t.domains, countLine "tables" t.tables,
   countLine "primary_keys" t.primaryKeys, countLine "unique_constraints" t.uniqueConstraints,
   countLine "indexes" t.indexes, countLine "foreign_keys" t.foreignKeys,
   countLine "identities" t.identities, countLine "check_constraints" t.checkConstraints,
   countLine "views" t.views, countLine "functions" t.functions,
   countLine "triggers" t.triggers, countLine "unparsable (unsure)" t.probeFailures]

def renameLine (r : Rename) : String := s!"{r.schema}\t{r.kind}\t{r.wanted}\t{r.chosen}"

def renameLines (renames : List Rename) : List String :=
  if renames.isEmpty then []
  else
    heading '-' s!"RENAMES ({renames.length} total)" ++
      ["schema\tkind\toriginal\tchosen"] ++ renames.map renameLine ++ [""]

/-- A line feed inside a warning becomes a bar. -/
def warningLine (warning : String) : String :=
  " | ".intercalate ((List.splitOn '\n' warning.toList).map String.ofList)

def warningLines (warnings : List String) : List String :=
  if warnings.isEmpty then ["No warnings.", ""]
  else
    heading '-' s!"WARNINGS ({warnings.length} total)" ++ warnings.map warningLine ++ [""]

def lines (r : Report) : List String :=
  heading '=' "DB2-TO-POSTGRESQL DDL CONVERSION REPORT" ++
    [s!"Timestamp     : {r.moment.iso}", s!"Input dump    : {r.input}",
     s!"Total elapsed : {Fixed.ofFloat 2 r.elapsed}s", ""] ++
    heading '-' "OBJECTS" ++ counts r.tally ++ [""] ++ renameLines r.renames ++
    warningLines r.warnings ++ heading '=' "END OF REPORT"

def render (r : Report) : String := unlines r.lines

/-- The path of the report in a directory for logs. -/
def fileName (m : Moment) : String := s!"conversion_report_{m.stamp}.txt"

end Report

end SchemaTransfer
