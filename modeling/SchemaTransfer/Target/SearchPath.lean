import SchemaTransfer.Catalog.Basic
import SchemaTransfer.Text.Lines
import SchemaTransfer.Unicode.Blank
import SchemaTransfer.Unicode.Casing

/-!
# The search path of a view

The current schema and the pieces of the current path that a view was created with, each once and
in lower case, and `db2` behind them unless it is among them.
-/
namespace SchemaTransfer.SearchPath
open Unicode

/-- A piece of a path without double quotes and blanks around it, in lower case. -/
def entry (cs : List Char) : String := .ofList (lower (trim (cs.filter (· != '"'))))

/-- Adds an entry that is not empty and not there yet. -/
def add (entries : List String) (entry : String) : List String :=
  if entry = "" || entries.contains entry then entries else entries ++ [entry]

def candidates (context : Context) : List String :=
  (context.schema.toList :: List.splitOn ',' context.path.toList).map entry

def entries (context : Context) : List String :=
  add ((candidates context).foldl add []) "db2"

end SchemaTransfer.SearchPath
