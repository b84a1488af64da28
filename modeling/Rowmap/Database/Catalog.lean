import Rowmap.Database.Relation
/-! The tables that list the tables. Each part of a database has one, with a row for every table and
every index, in the order in which they were made. The names in them are asked for by patterns. -/

namespace Rowmap

/-- Whether a text is like a pattern: a percent sign stands for any run of characters, an underscore for any one, and a
letter for itself in either case. -/
def like : List Char → List Char → Bool
  | [], s => s.isEmpty
  | p :: ps, s =>
    if p = '%' then (List.range (s.length + 1)).any fun k => like ps (s.drop k)
    else
      match s with
      | [] => false
      | c :: cs => (p = '_' || p.toLower = c.toLower) && like ps cs

namespace Catalog

def isReserved (name : String) : Bool := name.toLower.toList.take 7 = "sqlite_".toList

def definition (temporary : Bool) : Definition where
  name := if temporary then "sqlite_temp_master" else "sqlite_master"
  columns := [⟨"type", "TEXT", false, false⟩, ⟨"name", "TEXT", false, false⟩,
    ⟨"tbl_name", "TEXT", false, false⟩, ⟨"rootpage", "INT", false, false⟩, ⟨"sql", "TEXT", false, false⟩]
  primaryKey := []
  foreignKeys := []
  text := ""

/-- The names under which the list of a part is known; the last ones only if the part is named. -/
def names (temporary named : Bool) : List String :=
  if temporary then
    ["sqlite_temp_master", "sqlite_temp_schema"] ++
      if named then ["sqlite_master", "sqlite_schema"] else []
  else ["sqlite_master", "sqlite_schema"]

def indexName (table : String) (n : Nat) : String :=
  "sqlite_autoindex_" ++ table ++ "_" ++ toString n

/-- What is listed of a table: itself, and the indexes that keep its keys. -/
def entries (d : Definition) : List (String × String × Cell) :=
  ("table", d.name, .text ("CREATE TABLE " ++ d.text)) ::
    d.indexes.zipIdx.map fun i => ("index", indexName d.name (i.2 + 1), .null)

/-- The list of some tables. The first page is its own, and every entry begins on one more. -/
def relation (temporary : Bool) (tables : List Definition) : Relation where
  definition := definition temporary
  temporary := temporary
  rows := (tables.flatMap fun d => (entries d).map (d.name, ·)).zipIdx.map fun e =>
    { number := e.2 + 1
      cells := [.text e.1.2.1, .text e.1.2.2.1, .text e.1.1, .integer (e.2 + 2), e.1.2.2.2] }

end Catalog

end Rowmap
