import SchemaTransfer.Catalog.Basic

/-!
# Texts for moving the data

The manifest names every table and its columns, one on a line, with tabs between the fields. The
export script tells the database to write each table to a file of its own.
-/
namespace SchemaTransfer

namespace Manifest

def columnLine (c : Column) : String :=
  let nullability := if c.notNull then "NOTNULL" else "NULL"
  s!"\t{c.name}\t{c.dumpType}\t{nullability}\n"

def tableLines (s : Schema) (t : Table) : String :=
  s!"{s.name}\t{t.name}\n" ++ String.join (t.sortedColumns.map columnLine)

end Manifest

def Catalog.manifest (c : Catalog) : String :=
  String.join (c.tables.map fun (s, t) => Manifest.tableLines s t)

/-- Who reads the data from where. -/
structure Credentials where
  database : String
  user : String
  password : String
  deriving DecidableEq, Inhabited

namespace ExportScript

def tableLine (s : Schema) (t : Table) : String :=
  let target := s.name ++ "." ++ t.name
  s!"EXPORT TO {target}.del of del LOBS to . MODIFIED BY LOBSINFILE " ++
    s!"messages {target}.log SELECT * FROM \"{s.name}\".\"{t.name}\"\n"

end ExportScript

/-- Large objects go to files beside that of their table. -/
def Catalog.exportScript (c : Catalog) (login : Credentials) : String :=
  s!"connect to {login.database} user {login.user} using '{login.password}'\n" ++
    String.join (c.tables.map fun (s, t) => ExportScript.tableLine s t)

end SchemaTransfer
