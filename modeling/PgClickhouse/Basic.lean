import Mathlib.Data.List.Basic
import Mathlib.Order.Basic
import Mathlib.Order.Nat
import Mathlib.Tactic.Common

/-!
# Shared data

The values every part of the extension passes around: C strings as byte lists, the
`DefElem` cells of an options list, packed lists of settings, statements, and the server
version a connection reports.
-/

namespace PgClickhouse

/-- A C string or a buffer, without its terminator. -/
abbrev Bytes := List UInt8

/-- The bytes of a literal of the source. -/
def ascii (s : String) : Bytes :=
  s.toList.map fun c => c.toNat.toUInt8

/-- The text `%d` prints. -/
def decimal (n : Int) : Bytes :=
  ascii (toString n)

/-- `isspace` in the C locale. -/
def isspace (c : UInt8) : Bool :=
  c == 32 || (9 ≤ c && c ≤ 13)

/-- A cell of an options list.  `arg` is `none` for a null pointer. -/
structure DefElem where
  defname : Bytes
  arg : Option Bytes
  deriving Repr, DecidableEq

/-- A packed list of names and values. -/
abbrev kv_list := List (Bytes × Bytes)

/-- A statement to execute on ClickHouse: its text, the values of its parameters, the
settings to send, and for an insert the body that is posted verbatim. -/
structure ch_query where
  sql : Bytes
  param_values : List (Option Bytes)
  settings : kv_list
  body : Option Bytes
  deriving Repr, DecidableEq

/-- The version a server reports; all zero when it is not known. -/
structure ch_server_version where
  major : Int
  minor : Int
  patch : Int
  deriving Repr, DecidableEq

namespace ch_server_version

/-- `(ch_server_version){ 0 }`. -/
def zero : ch_server_version := ⟨0, 0, 0⟩

end ch_server_version

/-- True if version `v` is at least `major.minor`. -/
def chfdw_version_ge (v : ch_server_version) (major minor : Int) : Bool :=
  decide (v.major > major) || (decide (v.major = major) && decide (v.minor ≥ minor))

/-- An `ereport` below `ERROR`: it is printed, and the caller goes on. -/
structure Report where
  level : String
  errmsg : Bytes
  errdetail : Bytes
  deriving Repr, DecidableEq

end PgClickhouse
