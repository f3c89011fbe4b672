import SchemaTransfer.Notice
import SchemaTransfer.Unicode.Casing

/-!
# Identifiers of the target

A name is written in lower case and without hyphens, and between double quotes if it is a reserved
word.
-/
namespace SchemaTransfer

/-- Words that PostgreSQL accepts as identifiers only between double quotes. -/
def reservedWords : List String :=
  ["all", "analyse", "analyze", "and", "any", "array", "as", "asc", "asymmetric",
   "authorization", "binary", "both", "case", "cast", "check", "collate", "collation",
   "column", "concurrently", "constraint", "create", "cross", "current_catalog",
   "current_date", "current_role", "current_schema", "current_time", "current_timestamp",
   "current_user", "default", "deferrable", "desc", "distinct", "do", "else", "end", "except",
   "false", "fetch", "for", "foreign", "freeze", "from", "full", "grant", "group", "having",
   "ilike", "in", "initially", "inner", "intersect", "into", "is", "isnull", "join",
   "lateral", "leading", "left", "like", "limit", "localtime", "localtimestamp", "natural",
   "not", "notnull", "null", "offset", "on", "only", "or", "order", "outer", "overlaps",
   "placing", "primary", "references", "returning", "right", "select", "session_user",
   "similar", "some", "symmetric", "table", "tablesample", "then", "to", "trailing", "true",
   "union", "unique", "user", "using", "variadic", "verbose", "when", "where", "window",
   "with"]

/-- The form under which a name is known in the target. -/
def normalize (name : String) : String := lowerCase (withoutDashes name)

def quoteReserved (name : String) : String :=
  if reservedWords.contains name then "\"" ++ name ++ "\"" else name

/-- A name as it is written in a statement. -/
def identifier (name : String) : String := quoteReserved (normalize name)

def qualifiedName (schema name : String) : String := identifier schema ++ "." ++ identifier name

def identifierList (names : List String) : String := ", ".intercalate (names.map identifier)

end SchemaTransfer
