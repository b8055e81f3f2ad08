import DatabasesEverywhere.Foundations.Bytes

/-!
# Databases/Protocol — the engines and what their SQL is like
-/

namespace DatabasesEverywhere

open Foundations

inductive Protocol
  | postgres | redis | valkey | mariadb | mysql | mongodb | clickhouse | qdrant
  deriving DecidableEq

inductive EngineFamily
  | postgres | mysql | document | columnar | resp | vector
  deriving DecidableEq

def EngineFamily.isPostgres (family : EngineFamily) : Bool := family = .postgres

def EngineFamily.isMysql (family : EngineFamily) : Bool := family = .mysql

namespace Protocol

def asStr : Protocol → Bytes
  | .postgres => ascii "postgres"
  | .redis => ascii "redis"
  | .valkey => ascii "valkey"
  | .mariadb => ascii "mariadb"
  | .mysql => ascii "mysql"
  | .mongodb => ascii "mongodb"
  | .clickhouse => ascii "clickhouse"
  | .qdrant => ascii "qdrant"

def family : Protocol → EngineFamily
  | .postgres => .postgres
  | .mysql | .mariadb => .mysql
  | .mongodb => .document
  | .clickhouse => .columnar
  | .redis | .valkey => .resp
  | .qdrant => .vector

/-- Whether a backslash escapes inside `'…'`. -/
def sqlBackslashStrings : Protocol → Bool
  | .mysql | .mariadb | .clickhouse => true
  | .postgres | .redis | .valkey | .mongodb | .qdrant => false

theorem not_isPostgres_of_isMysql {protocol : Protocol} (h : protocol.family.isMysql = true) :
    protocol.family.isPostgres = false := by
  cases protocol <;> first | rfl | exact absurd h (by decide)

theorem asStr_injective : Function.Injective asStr := by
  intro a b h
  cases a <;> cases b <;> first | rfl | exact absurd h (by decide)

theorem length_asStr_lt (protocol : Protocol) : protocol.asStr.length < 2 ^ 64 := by
  cases protocol <;> decide

end Protocol

end DatabasesEverywhere
