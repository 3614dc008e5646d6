import CatalogReplica.Assoc
import CatalogReplica.Storage.Draft
import CatalogReplica.Lifetime.Ledger
import CatalogReplica.Catalog.Class
import CatalogReplica.Catalog.Config

/-!
# The provider of rows

The provider owns the native memory that entities are read from.  It finds rows by
key, knows the layouts of the classes, the encodings and the interned record types,
and counts the references taken on record descriptors.

* `Provider.search`, `Provider.encoding?`, `Provider.lookupRecord` and
  `Provider.layout?` are its services; each can be made to fail.
* `Provider.putRow` and `Provider.intern` write what the services serve.
* The rows at the end (`schemaRow`, `relationRow`, ...) are the usual ones.
-/

namespace CatalogReplica.Catalog

open Storage (Memory Layout ColumnValue writeRow)
open Lifetime (LifespanKind Happening)

/-- A service of the provider. -/
inductive Service where
  | search
  | encoding
  | record
  | layout
  deriving DecidableEq, Inhabited, Repr

def Service.name : Service → String
  | search => "search"
  | encoding => "encoding"
  | record => "record"
  | layout => "layout"

/-- The service with the given name. -/
def Service.ofName? (name : String) : Option Service :=
  [search, encoding, record, layout].find? (·.name == name)

/-- The provider of rows. -/
structure Provider where
  memory : Memory := {}
  layouts : Assoc Oid Layout := []
  rows : Assoc EntityKey Address := []
  /-- Where further rows are, which go before the others. -/
  extraRows : Assoc EntityKey Address := []
  encodings : Assoc Int32 EncodingInfo := []
  records : Assoc Int32 Address := []
  /-- Further record descriptors, which go before the others and are not counted. -/
  extraRecords : Assoc Int32 Address := []
  references : Assoc Address Nat := []
  /-- The record descriptors given back, the first one in front. -/
  released : List Address := []
  scope : Address × LifespanKind := (⟨0x10⟩, .memory)
  searches : Nat := 0
  failures : Assoc Service Fault := []
  deriving Inhabited

namespace Provider

/-! ## Services -/

/-- Gives the answer of a service unless the service fails. -/
def serve {α : Type} (provider : Provider) (service : Service) (answer : α) : Except Fault α :=
  match provider.failures.get? service with
  | some fault => .error fault
  | none => .ok answer

/-- The row that a search for the key finds. -/
def row? (provider : Provider) (key : EntityKey) : Option Address :=
  (provider.extraRows.get? key).orElse fun _ => provider.rows.get? key

/-- Finds the row of a key.  Every search counts. -/
def search (key : EntityKey) : Task Provider (Option Address) := do
  modify fun provider => { provider with searches := provider.searches + 1 }
  let provider ← get
  Task.ofExcept (provider.serve .search (provider.row? key))

def encoding? (provider : Provider) (id : Int32) : Except Fault (Option EncodingInfo) :=
  provider.serve .encoding (provider.encodings.get? id)

/-- The layout of the rows of a class. -/
def layout? (provider : Provider) (c : EntityClass) : Except Fault Layout :=
  provider.serve .layout ((provider.layouts.get? c.oid).getD c.layout)

/-- How many references on a descriptor were not given back. -/
def referencesOn (provider : Provider) (address : Address) : Nat :=
  (provider.references.get? address).getD 0

/-- Takes a reference on a descriptor. -/
def addReference (provider : Provider) (address : Address) : Provider :=
  { provider with
    references := provider.references.set address (provider.referencesOn address + 1) }

/-- Finds the descriptor interned under a type modifier and takes a reference on it. -/
def lookupRecord (typmod : Int32) : Task Provider (Option Address) := do
  let provider ← get
  Task.ofExcept (provider.serve .record ())
  match provider.extraRecords.get? typmod with
  -- A further descriptor is not counted, so no reference is taken on it.
  | some address => return some address
  | none =>
      match provider.records.get? typmod with
      | none => return none
      | some address =>
          set (provider.addReference address)
          return some address

/-- Gives a reference on a descriptor back. -/
def releaseDescriptor (provider : Provider) (address : Address) : Provider :=
  let references :=
    match provider.references.get? address with
    | some count => provider.references.set address (count - 1)
    | none => provider.references
  { provider with references, released := provider.released ++ [address] }

/-- Takes notice of what happened to a guard: an unreachable descriptor is given
    back; one whose scope was torn down is gone already. -/
def notice (provider : Provider) : Happening → Provider
  | .fired _ handle .unreachable => provider.releaseDescriptor handle
  | _ => provider

/-! ## Contents -/

/-- Runs an operation of the memory. -/
def onMemory {α : Type} (body : Task Memory α) : Task Provider α :=
  Task.within (·.memory) (fun memory provider => { provider with memory }) body

/-- Writes a row with the usual layout of its class in place of the row before. -/
def putRow (c : EntityClass) (key : EntityKey) (columns : List (String × ColumnValue)) :
    Task Provider Address := do
  let address ← onMemory (writeRow c.layout columns)
  modify fun provider => { provider with rows := provider.rows.set key address }
  return address

/-- The layout that further rows of a class number are written with. -/
def currentLayout (provider : Provider) (classOid : Oid) : Except Interrupt Layout :=
  match (provider.layouts.get? classOid).orElse fun _ =>
      (EntityClass.ofOid? classOid).map (·.layout) with
  | some layout => .ok layout
  | none => .error (.crash (some s!"no layout for class {classOid.text}"))

/-- Writes the descriptor of a record type with the given column types. -/
def writeDescriptor (columns : List (String × ColumnValue)) : Task Provider Address :=
  onMemory (writeRow descriptorLayout columns)

/-- Interns a record type with the given column types under a type modifier. -/
def intern (typmod : Int32) (types : List Oid) : Task Provider Address := do
  let address ← writeDescriptor [
    ("natts", .i32 (Int32.ofNat types.length)), ("tdtypeid", .oid recordType),
    ("tdtypmod", .i32 typmod), ("atttypes", .oidList types)]
  modify fun provider => { provider with records := provider.records.set typmod address }
  return address

/-- Deletes the rows of a key and tells where they were: a further row, and a usual
    one. -/
def remove (key : EntityKey) (provider : Provider) :
    (Option Address × Option Address) × Provider :=
  ((provider.extraRows.get? key, provider.rows.get? key),
    { provider with
      extraRows := provider.extraRows.erase key, rows := provider.rows.erase key })

end Provider

/-! ## The usual rows -/

/-- A row to be written: its class, key and columns. -/
structure RowPlan where
  kind : EntityClass
  key : EntityKey
  columns : List (String × ColumnValue)
  deriving DecidableEq, Inhabited, Repr

namespace RowPlan

/-- The row of an object with the given columns. -/
def ofObject (kind : EntityClass) (oid : Oid) (columns : List (String × ColumnValue)) : RowPlan :=
  { kind, key := kind.key oid, columns }

/-- The character that stands for a kind. -/
def letter (c : Char) : ColumnValue := .char (UInt8.ofNat c.toNat)

/-- A namespace. -/
def schema (oid : Oid) (name : String) (owner : Oid) : RowPlan :=
  ofObject .schema oid [("nspname", .name name), ("nspowner", .oid owner)]

/-- An ordinary table. -/
def relation (oid : Oid) (name : String) (schema rowType : Oid) (natts : Int16) : RowPlan :=
  ofObject .relation oid [
    ("relname", .name name), ("relnamespace", .oid schema), ("reltype", .oid rowType),
    ("relkind", letter 'r'), ("relnatts", .i16 natts)]

/-- An attribute of a relation. -/
def attr (relation : Oid) (attnum : Int16) (name : String) (type : Oid) (typmod : Int32) :
    RowPlan :=
  { kind := .attr
    key := attributeKey relation attnum
    columns := [
      ("attrelid", .oid relation), ("attname", .name name), ("atttypid", .oid type),
      ("attnum", .i16 attnum), ("atttypmod", .i32 typmod), ("attnotnull", .bool false)] }

/-- A type without parts. -/
def scalar (oid : Oid) (name : String) (length : Int16) (byValue : Bool) : RowPlan :=
  ofObject .type oid [
    ("typname", .name name), ("typlen", .i16 length), ("typbyval", .bool byValue),
    ("typtype", letter 'b')]

/-- The row type of a relation. -/
def composite (oid : Oid) (name : String) (relation : Oid) : RowPlan :=
  ofObject .type oid [
    ("typname", .name name), ("typlen", .i16 (-1)), ("typbyval", .bool false),
    ("typtype", letter 'c'), ("typrelid", .oid relation)]

/-- The type of anonymous records. -/
def record : RowPlan :=
  ofObject .type recordType [
    ("typname", .name "record"), ("typlen", .i16 (-1)), ("typtype", letter 'p')]

/-- A routine that returns nothing. -/
def routine (oid : Oid) (name : String) (schema language : Oid) (arguments : List Oid)
    (source : Option String) : RowPlan :=
  ofObject .routine oid [
    ("proname", .name name), ("pronamespace", .oid schema), ("prolang", .oid language),
    ("prorettype", .oid ⟨2278⟩), ("proretset", .bool false), ("proargtypes", .oidList arguments),
    ("prosrc", .text source)]

/-- A procedural language. -/
def language (oid : Oid) (name : String) (trusted : Bool) : RowPlan :=
  ofObject .language oid [
    ("lanname", .name name), ("lanpltrusted", .bool trusted), ("lanispl", .bool true)]

end RowPlan

/-- Writes a usual row. -/
def Provider.put (plan : RowPlan) : Task Provider Address :=
  Provider.putRow plan.kind plan.key plan.columns

end CatalogReplica.Catalog
