import QueryKit.Comparator.Basic
import QueryKit.Url.Basic

-- What can go wrong, by cause. Building a statement fails before anything is sent; transport
-- faults come from the connection as they are; the rest is misuse of a driver or its setup.

namespace QueryKit
open Text

inductive JoinFault where
  | unequal (left right : Nat)
  | mixed
  | empty
  | blankColumn
  | twoComparators
  | blankLink
  | unequalLink (inner outer : Nat)
  | emptyLink
  | described (words : String)

inductive StatementKind where
  | select | count | insert | update | delete
  deriving DecidableEq, Repr

inductive QueryFault where
  | misfit (operand : Operand) (op : Operator)
  | unknownFunction (name : String)
  | unjoinedTable (table : String)
  | aliasWithoutTable (label : String)
  | selectWithoutTable
  | noTable (kind : StatementKind)
  | noChanges (table : String)
  | missingIdentifier (position : Nat) (query : String)
  | countNotNumeric (text : String)
  | unknownColumn (name : String)
  | undecodable (typeName : String) (index : Nat)
  | described (words : String)

inductive TransportFault where
  | io
  | tls
  | protocol (text : String)
  | workerCrashed
  | rowNotFound
  | poolClosed
  | poolTimedOut
  | database (text : String)
  | described (words : String)
  deriving DecidableEq, Repr

inductive ConfigFault where
  | urlUnset
  | invalidUrl (cause : UrlFault)
  | scheme (name : String)
  | noHost
  | noDatabase
  | maxConnections (text : String)
  | emptyHost
  | noConnections
  | described (words : String)

inductive Fault where
  | unsupportedOperator (token : String)
  | malformedJoin (cause : JoinFault)
  | unknownTable (name : String)
  | query (cause : QueryFault)
  | transport (cause : TransportFault)
  | connection (words : String)
  | configuration (cause : ConfigFault)
  | unknownAdapter (name : String)
  | aliasCycle (name : String)
  | serialization
  -- A timestamp that its shift takes out of the calendar. It has no message: nothing is written or read.
  | dateOutOfRange

def JoinFault.message : JoinFault → String
  | .unequal left right => natText left ++ " join columns cannot pair with " ++ natText right
  | .mixed => "cannot pair a single join column with a column list"
  | .empty => "join needs at least one column pair"
  | .blankColumn => "join column names must not be empty"
  | .twoComparators => "only one side of a join pair may carry a comparator"
  | .blankLink => "EXISTS link columns must not be empty"
  | .unequalLink inner outer =>
    "EXISTS link has " ++ natText inner ++ " inner columns but " ++ natText outer ++ " outer columns"
  | .emptyLink => "EXISTS link needs at least one column pair"
  | .described words => words

def StatementKind.subject : StatementKind → String
  | .select => "select query"
  | .count => "count query"
  | .insert => "insert statement"
  | .update => "update statement"
  | .delete => "delete statement"

def QueryFault.message : QueryFault → String
  | .misfit operand op =>
    "operand " ++ operand.description ++ " does not fit comparator '" ++ op.token ++ "'"
  | .unknownFunction name => "Unknown SQL function '" ++ name ++ "'"
  | .unjoinedTable table => "table '" ++ table ++ "' joined without join columns"
  | .aliasWithoutTable label => "alias '" ++ label ++ "' set before any table"
  | .selectWithoutTable => "select list given before any table"
  | .noTable kind => kind.subject ++ " has no table"
  | .noChanges table => "update of '" ++ table ++ "' has no changes"
  | .missingIdentifier position query =>
    "missing identifier argument #" ++ natText position ++ " for '" ++ query ++ "'"
  | .countNotNumeric text => "count returned non-numeric '" ++ text ++ "'"
  | .unknownColumn name => "Column '" ++ name ++ "' not found"
  | .undecodable typeName index => "Failed to decode " ++ typeName ++ " column " ++ natText index
  | .described words => words

def TransportFault.message : TransportFault → String
  | .io => "error communicating with database"
  | .tls => "error occurred while attempting to establish a TLS connection"
  | .protocol text => "encountered unexpected or invalid data: " ++ text
  | .workerCrashed => "attempted to communicate with a crashed background worker"
  | .rowNotFound => "no rows returned by a query that expected to return at least one row"
  | .poolClosed => "attempted to acquire a connection on a closed pool"
  | .poolTimedOut => "pool timed out while waiting for an open connection"
  | .database text => "error returned from database: " ++ text
  | .described words => words

def ConfigFault.message : ConfigFault → String
  | .urlUnset => "DATABASE_URL is not set"
  | .invalidUrl cause => "Invalid database URL: " ++ cause.message
  | .scheme name => "Invalid PostgreSQL URL scheme '" ++ name ++ "'"
  | .noHost => "Missing host in database URL"
  | .noDatabase => "Missing database name in URL"
  | .maxConnections text => "Invalid max_connections '" ++ text ++ "'"
  | .emptyHost => "host must not be empty"
  | .noConnections => "max_connections must be at least 1"
  | .described words => words

namespace Fault

def message : Fault → String
  | .unsupportedOperator token => "Unsupported comparator operator: " ++ token
  | .malformedJoin cause => "Malformed join: " ++ cause.message
  | .unknownTable name => "Unknown table reference '" ++ name ++ "'"
  | .query cause => "Query error: " ++ cause.message
  | .transport cause => "Transport error: " ++ cause.message
  | .connection words => "Connection error: " ++ words
  | .configuration cause => "Configuration error: " ++ cause.message
  | .unknownAdapter name => "Unknown adapter '" ++ name ++ "'"
  | .aliasCycle name => "Adapter alias cycle while resolving '" ++ name ++ "'"
  | .serialization => "Serialization error"
  | .dateOutOfRange => ""

def isTransport : Fault → Bool
  | .transport _ => true
  | _ => false

def isConstruction : Fault → Bool
  | .unsupportedOperator _ | .malformedJoin _ | .unknownTable _ | .query _ => true
  | _ => false

end Fault

theorem error_of_bind {α β : Type} {x : Except Fault α} {f : α → Except Fault β} {fault : Fault}
    (failed : (x >>= f) = .error fault) : x = .error fault ∨ ∃ a, x = .ok a ∧ f a = .error fault := by
  cases x with
  | error first =>
    cases failed
    exact .inl rfl
  | ok a => exact .inr ⟨a, rfl, failed⟩

def TransportFault.losesConnection : TransportFault → Bool
  | .io | .tls | .protocol _ | .workerCrashed => true
  | _ => false

end QueryKit
