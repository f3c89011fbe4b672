import SchemaTransfer.Catalog.Table
import SchemaTransfer.Target.Names
import SchemaTransfer.Target.Script

/-!
# Names of foreign keys

A foreign key without a name gets the one that the target would choose, made of the table, the
columns and `fkey`, with the smallest number behind it that tells it from the named foreign keys of
the table and from the unnamed ones before it.
-/
namespace SchemaTransfer.ForeignKeyName

/-- The names that foreign keys bring with them. -/
def named (keys : List ForeignKey) : List String :=
  keys.filterMap fun k => (given k.name).map identifier

/-- The name that an unnamed foreign key gets unless it is taken. -/
def base (table : String) (k : ForeignKey) : String :=
  identifier ("_".intercalate (table :: k.columns ++ ["fkey"]))

def choose (taken : List String) (base : String) : String :=
  if taken.contains base then Names.numbered taken.contains base (taken.length + 1) else base

def assign (table : String) (taken : List String) :
    List ForeignKey → List (ForeignKey × String)
  | [] => []
  | k :: rest =>
    match given k.name with
    | some name => (k, identifier name) :: assign table taken rest
    | none =>
      let name := choose taken (base table k)
      (k, name) :: assign table (name :: taken) rest

end ForeignKeyName

namespace Table

/-- The foreign keys of a table with the names that they have in the target. -/
def namedForeignKeys (t : Table) : List (ForeignKey × String) :=
  ForeignKeyName.assign t.name (ForeignKeyName.named t.foreignKeys) t.foreignKeys

end Table

end SchemaTransfer
