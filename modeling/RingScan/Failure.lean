import RingScan.Column.Type
import RingScan.Text.Integer
import RingScan.Uuid
import RingScan.Value.Basic

/-!
# Failures

The causes for which reading a split fails, from a job that cannot be run to a statement that could
not be executed, and the wording of each.

## Main definitions

* `Causes`: a message and what was behind it.
* `ConfigurationFault`, `EncodingFault`, `ExecutionFault`: causes of the three common kinds.
* `Failure`: why a reader cannot go on.
* `Failure.message`: the wording of a failure.
-/

namespace RingScan

/-- A message and the messages of what was behind it, each the cause of the one before. -/
structure Causes where
  /-- The message nearest to the caller. -/
  outermost : String
  /-- What was behind it. -/
  inner : List String
  deriving DecidableEq, Repr

/-- All messages of a chain of causes. -/
def Causes.message (c : Causes) : String :=
  ": ".intercalate (c.outermost :: c.inner)

/-- Why a job or a table cannot support a scan. -/
inductive ConfigurationFault where
  /-- The name stands for no column type. -/
  | unsupportedType (name : String)
  /-- A partition key has no column. -/
  | noKeyTypes
  /-- A table has no partition key. -/
  | noPartitionKey
  /-- The identifier stands for no partitioner. -/
  | unsupportedPartitioner (identifier : String)
  /-- The text is no hashed token. -/
  | hashedToken (text : String) (fault : Text.IntegerFault)
  /-- The text is no token of key bytes. -/
  | byteToken (text : String) (fault : Text.Hex.Fault)
  /-- The job names no table. -/
  | emptyTable
  /-- The job asks for pages without rows. -/
  | emptyPage
  /-- A field of the lookup has no name. -/
  | blankLookupField
  /-- The lookup needs a partition key of several columns. -/
  | lookupOnScalarKey (equalsField inField : String)
  deriving DecidableEq, Repr

/-- The wording of a fault. -/
def ConfigurationFault.message : ConfigurationFault → String
  | unsupportedType name => s!"unsupported column type `{name}`"
  | noKeyTypes => "cannot build a key validator without partition key columns"
  | noPartitionKey => "cannot determine key validator, partition keys: []"
  | unsupportedPartitioner identifier => s!"unsupported partitioner `{identifier}`"
  | hashedToken text fault => s!"invalid murmur3 token `{text}`: {fault.message}"
  | byteToken text fault => s!"invalid byte token `{text}`: {fault.message}"
  | emptyTable => "job config has empty table"
  | emptyPage => "job config has invalid page_size=0"
  | blankLookupField => "equals/in predicate requires both field names"
  | lookupOnScalarKey equalsField inField =>
    s!"equals/in predicate on `{equalsField}`/`{inField}` requires a composite partition key"

/-- Why a value has no cell, a cell no value, or a row no key. -/
inductive EncodingFault where
  /-- A column of the type holds no such value. -/
  | mismatch (kind : Value.Kind) (type : ColumnType)
  /-- A cell of the type has `expected` bytes. -/
  | width (type : ColumnType) (expected actual : Nat)
  /-- An address has four or sixteen bytes. -/
  | addressWidth (actual : Nat)
  /-- The bytes are no text. -/
  | notText (fault : Text.Utf8.Fault)
  /-- The text is no identifier. -/
  | notUuid (text : String) (fault : Uuid.Fault)
  /-- A key has a component for each of its columns. -/
  | componentCount (expected actual : Nat)
  /-- The length of a component does not fit its frame. -/
  | componentTooLong (length : Nat)
  /-- A row has no value for a column of the partition key. -/
  | missingKeyColumn (name : String)
  deriving DecidableEq, Repr

/-- The wording of a fault. -/
def EncodingFault.message : EncodingFault → String
  | mismatch kind type => s!"cannot encode {kind.name} as {type.name}"
  | width type expected actual => s!"{type.name} value must be {expected} bytes, got {actual}"
  | addressWidth actual => s!"inet value must be 4 or 16 bytes, got {actual}"
  | notText fault => s!"invalid utf-8 text: {fault.message}"
  | notUuid text fault => s!"invalid uuid `{text}`: {fault.message}"
  | componentCount expected actual =>
    s!"partition key expects {expected} component(s), got {actual}"
  | componentTooLong length => s!"composite component of {length} bytes exceeds 65535 bytes"
  | missingKeyColumn name => s!"partition key column `{name}` has no value"

/-- Why a statement was not executed. -/
inductive ExecutionFault where
  /-- No host could be reached; the next attempt may succeed. -/
  | noHost (message : String)
  /-- Anything else. -/
  | other (causes : Causes)
  deriving DecidableEq, Repr

namespace ExecutionFault

/-- The wording of a fault. -/
def message : ExecutionFault → String
  | noHost message => s!"no host available: {message}"
  | other causes => causes.outermost

/-- Whether another attempt may succeed. -/
def isTransient : ExecutionFault → Bool
  | noHost _ => true
  | other _ => false

end ExecutionFault

/-- Why no replica could be connected to. -/
inductive ConnectionFault where
  /-- There was none to try. -/
  | noReplicas
  /-- The last one tried was refused. -/
  | refused (causes : Causes)
  deriving DecidableEq, Repr

/-- The wording of a fault. -/
def ConnectionFault.message : ConnectionFault → String
  | noReplicas => "split has no replica endpoints"
  | refused causes => causes.message

/-- Why a reader cannot go on. -/
inductive Failure where
  /-- The job or the table cannot support a scan. -/
  | configuration (fault : ConfigurationFault)
  /-- The layout of the table could not be fetched. -/
  | metadata (causes : Causes)
  /-- No replica accepted a connection. -/
  | connection (candidates : List String) (fault : ConnectionFault)
  /-- A statement failed for the last time. -/
  | io (attempts : Nat) (fault : ExecutionFault)
  /-- A value could not be encoded. -/
  | encoding (fault : EncodingFault)
  /-- There is no further row. -/
  | exhausted
  /-- The scan failed before. -/
  | aborted
  deriving DecidableEq, Repr

/-- The wording of a failure. -/
def Failure.message : Failure → String
  | configuration fault => s!"invalid configuration: {fault.message}"
  | metadata causes => s!"fetch table metadata: {causes.message}"
  | connection candidates fault =>
    s!"could not connect to any replica {Text.Escaped.list candidates}: {fault.message}"
  | io attempts fault => s!"i/o error after {attempts} attempt(s): {fault.message}"
  | encoding fault => s!"encoding error: {fault.message}"
  | exhausted => "split reader exhausted"
  | aborted => "split reader aborted after an earlier failure"

/-- The type that a name stands for, or why there is none. -/
def ColumnType.read (name : String) : Except ConfigurationFault ColumnType :=
  match ColumnType.ofName? name with
  | some type => .ok type
  | none => .error (.unsupportedType (ColumnType.normalName name))

end RingScan
