import ScriptLang.Files.Document
import ScriptLang.Format.Digest
import ScriptLang.Package.Console

/-!
# Databases

Named databases of tables; a table is an object with a schema, an array of records and the number
of its next record. Records are objects of the program and are shared with it. A database can be
kept in a file.
-/

namespace ScriptLang.Package

open ScriptLang.Action ScriptLang.Library

def databaseAt (id : Nat) : Routine Database := do
  return (← get).databases.databases.getD id
    { name := .null, tables := .null, indexes := .null, file := "" }

def setTables (id : Nat) (tables : Value) : Routine Unit :=
  modify fun w =>
    { w with databases :=
        { w.databases with
          databases := w.databases.databases.modify id fun d => { d with tables } } }

def newDatabase (name : Value) : Routine Nat := do
  let tables ← objectOf []
  let indexes ← objectOf []
  let file := (← text name) ++ ".zendb"
  modifyGet fun w =>
    (w.databases.databases.size,
      { w with databases :=
          { w.databases with
            databases := w.databases.databases.push { name, tables, indexes, file } } })

def tablesOf (document : Value) : Routine Value := do
  match document with
  | .object l =>
      match (← entries l).field? "tables" with
      | some v => return v
      | none => objectOf []
  | v => noAttribute v "get"

/-- Takes the tables of a database from a file. -/
def takeTables (id : Nat) (path : Value) : Routine Unit := do
  setTables id (← tablesOf (← readJsonFile path))

/-- Takes the tables of a database from its file, if there is one. -/
def loadTables (id : Nat) : Routine Bool := do
  let file := Value.text (← databaseAt id).file
  if ← pathPresent file then
    takeTables id file
    return true
  else return false

def tableOf (id : Nat) (name : Value) : Routine Value := do
  let tables := (← databaseAt id).tables
  if ← contains tables name then getItem tables name
  else valueFault ("Table '" ++ (← text name) ++ "' does not exist")

def recordsOf (id : Nat) (name : Value) : Routine Value := do
  getItem (← tableOf id name) (.text "data")

def fieldsOf (v : Value) : Routine Entries := do
  match v with
  | .object l => entries l
  | v => noAttribute v "items"

def createTable (id : Nat) (name schema : Value) : Routine Value := do
  let tables := (← databaseAt id).tables
  if ← contains tables name then
    valueFault ("Table '" ++ (← text name) ++ "' already exists")
  else
    let schema ← if ← truthy schema then pure schema else objectOf []
    let data ← arrayOf []
    let table ← objectOf [("schema", schema), ("data", data), ("auto_increment", .int 1)]
    setItem tables name table
    return .bool true

/-- Puts a record that has a number into a table, with the time, and gives the number. -/
def storeRecord (table record : Value) : Routine Value := do
  setItem record (.text "_created_at") (.float (← get).clock)
  match ← getItem table (.text "data") with
  | .array l => modifyItems l (·.push record)
  | v => noAttribute v "append"
  getItem record (.text "id")

/-- Gives a record the next number of a table, unless it has one. -/
def numberRecord (table record : Value) : Routine Unit := do
  unless ← contains record (.text "id") do
    setItem record (.text "id") (← getItem table (.text "auto_increment"))
    setItem table (.text "auto_increment")
      (← add.plus (← getItem table (.text "auto_increment")) (.int 1))

/-- Adds a record to a table and gives its number. -/
def insertRecord (id : Nat) (name record : Value) : Routine Value := do
  let table ← tableOf id name
  numberRecord table record
  storeRecord table record

/-- Whether a record has all these fields with these values. -/
def fieldsMatch (record : Value) : Entries → Routine Bool
  | [] => return true
  | (k, v) :: rest => do
      if ← contains record k then
        if ← equal (← getItem record k) v then fieldsMatch record rest else return false
      else return false

def meets (conditions record : Value) : Routine Bool := do
  fieldsMatch record (← fieldsOf conditions)

/-- An array up to a limit: a new one when there is a limit. -/
def limited (v limit : Value) : Routine Value := do
  if ← truthy limit then slice v none (← ofExcept limit.sliceIndex) else return v

/-- The records of a table that meet conditions, at most `limit` many. Without conditions and limit
this is the table's own array. -/
def selectRecords (id : Nat) (name conditions limit : Value) : Routine Value := do
  let data ← recordsOf id name
  if ← truthy conditions then
    limited (← arrayOf (← (← iterate data).filterM (meets conditions))) limit
  else limited data limit

/-- Changes a record if it meets conditions, and counts it then. -/
def updateRecord (conditions changes : Value) (n : Nat) (record : Value) : Routine Nat := do
  if ← meets conditions record then
    (← fieldsOf changes).forM fun e => setItem record e.1 e.2
    setItem record (.text "_updated_at") (.float (← get).clock)
    return n + 1
  else return n

def updateRecords (id : Nat) (name conditions changes : Value) : Routine Value := do
  let records ← iterate (← recordsOf id name)
  return .int (← records.foldlM (updateRecord conditions changes) 0)

def deleteRecords (id : Nat) (name conditions : Value) : Routine Value := do
  let data ← recordsOf id name
  let records ← iterate data
  let kept ← records.filterM fun r => return !(← meets conditions r)
  let count := records.length - kept.length
  match data with
  | .array l => setItems l kept.toArray
  | v =>
      if count ≠ 0 then
        typeFault ("'" ++ v.typeName ++ "' object doesn't support item deletion")
  return .int count

def countRecords (id : Nat) (name conditions : Value) : Routine Value := do
  return .int (← length (← selectRecords id name conditions .null))

/-- Writes values with their names to a file. -/
def writeFields (path : Value) (fields : List (String × Value)) : Routine Value := do
  writeJson path (← objectOf fields)
  return .bool true

/-- What is written of a database, besides the time. -/
def savedFields (d : Database) : List (String × Value) :=
  [("name", d.name), ("tables", d.tables)]

def saveTables (id : Nat) : Routine Value := do
  let d ← databaseAt id
  writeFields (.text d.file) (savedFields d)

/-- Makes a database, registers it, and takes its tables from its file. -/
def enroll (name : Value) (known : Entries) : Routine Nat := do
  let id ← newDatabase name
  modify fun w =>
    { w with databases := { w.databases with registry := known.put name (.handle (.database id)) } }
  discard <| loadTables id
  return id

/-- Makes a database the one that the program is connected to. -/
def choose (id : Nat) : Routine Value := do
  modify fun w => { w with databases := { w.databases with current := some id } }
  return .handle (.database id)

def connect (name : Value) : Routine Value := do
  hashable name
  let known := (← get).databases.registry
  match known.get? name with
  | some (.handle (.database id)) => choose id
  | _ => choose (← enroll name known)

def connected : Routine Nat := do
  match (← get).databases.current with
  | some id => return id
  | none => valueFault "No database connected"

/-- `selectRecords` in the database that the program is connected to. -/
def selectHere (name conditions limit : Value) : Routine Value := do
  selectRecords (← connected) name conditions limit

def newQuery (table : Value) : Routine Value := do
  let conditions ← alloc (.object [])
  modifyGet fun w =>
    (.handle (.query w.databases.queries.size),
      { w with databases :=
          { w.databases with queries := w.databases.queries.push { table, conditions } } })

def firstOf (records : Value) : Routine Value := do
  if ← truthy records then getItem records (.int 0) else return .null

def fieldOrZero (field record : Value) : Routine Value := do
  match record with
  | .object l => fieldOr l field (.int 0)
  | v => noAttribute v "get"

def sumField (field records : Value) : Routine Value := do
  (← iterate records).foldlM (fun acc r => do add.plus acc (← fieldOrZero field r)) (.int 0)

def extremeField (op : OrderOp) (field records : Value) : Routine Value := do
  match ← iterate records with
  | [] => return .null
  | r :: rs =>
      rs.foldlM (fun best r => do
        let v ← fieldOrZero field r
        if ← ordered op v best then return v else return best) (← fieldOrZero field r)

/-- Adds to a record the fields that it lacks. -/
def addMissing (additions record : Value) : Routine Unit := do
  (← fieldsOf additions).forM fun e => do
    unless ← contains record e.1 do setItem record e.1 e.2

def removeFields (removals record : Value) : Routine Unit := do
  (← iterate removals).forM fun field => do
    if ← contains record field then
      match record with
      | .object l => modifyEntries l (·.erase field)
      | v => typeFault ("'" ++ v.typeName ++ "' object doesn't support item deletion")

/-- Adds fields to the records of a table that lack them, and removes others. -/
def migrate (id : Nat) (name additions removals : Value) : Routine Value := do
  let table ← tableOf id name
  if ← truthy additions then
    (← iterate (← getItem table (.text "data"))).forM (addMissing additions)
  if ← truthy removals then
    (← iterate (← getItem table (.text "data"))).forM (removeFields removals)
  return .bool true

def backup (id : Nat) (path : Value) : Routine Value := do
  let d ← databaseAt id
  writeFields path (savedFields d ++ [("backup_time", .float (← get).clock)])

def restore (id : Nat) (path : Value) : Routine Value := do
  takeTables id path
  return .bool true

def runDatabase (f : DatabaseFn) (args : List Value) : Routine Value := do
  let a := args.getD 0 .null
  let b := args.getD 1 .null
  let c := args.getD 2 .null
  match f with
  | .connect => connect a
  | .createTable => createTable (← connected) a b
  | .insert => insertRecord (← connected) a b
  | .select => selectHere a b c
  | .update => updateRecords (← connected) a b c
  | .delete => deleteRecords (← connected) a b
  | .count => countRecords (← connected) a b
  | .save => saveTables (← connected)
  | .load => return .bool (← loadTables (← connected))
  | .query => newQuery a
  | .hash => return .text (Digest.hexText (Digest.sha256 (← text a).toUTF8.toList))
  | .generateId =>
      let now ← text (.float (← get).clock)
      return .text (Digest.hexText ((Digest.md5 now.toUTF8.toList).take 8))
  | .timestamp => return .float (← get).clock
  | .now => return .text (← dateText)
  | .hasMany =>
      hashable b
      selectHere a (← newObject [(b, c)]) .null
  | .belongsTo => firstOf (← selectHere a (← objectOf [("id", c)]) (.int 1))
  | .sum_field => sumField b (← selectHere a c .null)
  | .avg_field =>
      let records ← selectHere a c .null
      if ← truthy records then div (← sumField b records) (.int (← length records))
      else return .int 0
  | .max_field => extremeField .gt b (← selectHere a c .null)
  | .min_field => extremeField .lt b (← selectHere a c .null)
  | .migrate => migrate (← connected) a b c
  | .backup => backup (← connected) a
  | .restore => restore (← connected) a

def databaseMethods : List (String × Signature) :=
  [("create_table", takes ["self", "table_name"] [("schema", .null)]),
   ("insert", takes ["self", "table_name", "record"] []),
   ("select", takes ["self", "table_name"] [("where", .null), ("limit", .null)]),
   ("update", takes ["self", "table_name", "where", "updates"] []),
   ("delete", takes ["self", "table_name", "where"] []),
   ("count", takes ["self", "table_name"] [("where", .null)]),
   ("save", takes ["self"] []),
   ("load", takes ["self"] [])]

def databaseMember? (id : Nat) (name : String) : Routine (Option Value) := do
  let d ← databaseAt id
  match name with
  | "name" => return some d.name
  | "tables" => return some d.tables
  | "indexes" => return some d.indexes
  | "file_path" => return some (.text d.file)
  | _ =>
      return (databaseMethods.lookup name).map fun _ => .bound (.handle (.database id)) name

def callDatabase (id : Nat) (name : String) (args : List Value) : Routine Value := do
  let signature := (databaseMethods.lookup name).getD anyNumber
  let args ← ofExcept (signature.bind ("ZenDB." ++ name) (.handle (.database id) :: args))
  let a := args.getD 1 .null
  let b := args.getD 2 .null
  let c := args.getD 3 .null
  match name with
  | "create_table" => createTable id a b
  | "insert" => insertRecord id a b
  | "select" => selectRecords id a b c
  | "update" => updateRecords id a b c
  | "delete" => deleteRecords id a b
  | "count" => countRecords id a b
  | "save" => saveTables id
  | _ => return .bool (← loadTables id)

def queryMethods : List (String × Signature) :=
  [("where", takes ["self", "field", "value"] []), ("limit", takes ["self", "n"] []),
   ("get", takes ["self"] []), ("first", takes ["self"] [])]

def queryAt (id : Nat) : Routine Query := do
  return (← get).databases.queries.getD id { table := .null, conditions := 0 }

def limitQuery (id : Nat) (limit : Value) : Routine Unit :=
  modify fun w =>
    { w with databases :=
        { w.databases with queries := w.databases.queries.modify id fun q => { q with limit } } }

def runQuery (id : Nat) : Routine Value := do
  let q ← queryAt id
  selectHere q.table (.object q.conditions) q.limit

def queryMember? (id : Nat) (name : String) : Routine (Option Value) := do
  let q ← queryAt id
  match name with
  | "table" => return some q.table
  | "where_clause" => return some (.object q.conditions)
  | "limit_value" => return some q.limit
  | "order_field" => return some .null
  | "order_dir" => return some (.text "asc")
  | _ => return (queryMethods.lookup name).map fun _ => .bound (.handle (.query id)) name

def callQuery (id : Nat) (name : String) (args : List Value) : Routine Value := do
  let self := Value.handle (.query id)
  let signature := (queryMethods.lookup name).getD anyNumber
  let args ← ofExcept (signature.bind ("Query." ++ name) (self :: args))
  match name with
  | "where" =>
      setItem (.object (← queryAt id).conditions) (args.getD 1 .null) (args.getD 2 .null)
      return self
  | "limit" =>
      limitQuery id (args.getD 1 .null)
      return self
  | "get" => runQuery id
  | _ =>
      limitQuery id (.int 1)
      firstOf (← runQuery id)

end ScriptLang.Package
