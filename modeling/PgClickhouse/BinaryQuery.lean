import PgClickhouse.Basic

/-!
# The binary query packet

The settings `binary.c` sends with a statement, and the database `connection.c` names in
the handshake.  The native protocol carries names and values with their lengths.
-/

namespace PgClickhouse

/-- A setting of a query packet.  The server refuses an important one it does not know. -/
structure chc_query_setting where
  name : Bytes
  value : Bytes
  important : Bool
  deriving Repr, DecidableEq

/-- The settings the driver adds after the session's.  `timezone` is the session's time
zone. -/
def binary_overrides (version : ch_server_version) (timezone : Bytes) : kv_list :=
  (if chfdw_version_ge version 24 10 then
    [(ascii "output_format_native_write_json_as_string", ascii "1")] else []) ++
  (if chfdw_version_ge version 23 6 then [(ascii "session_timezone", timezone)] else [])

/-- Session settings, then driver settings. -/
def ch_binary_query_settings (version : ch_server_version) (timezone : Bytes)
    (query : ch_query) : List chc_query_setting :=
  (query.settings ++ binary_overrides version timezone).map fun setting =>
    ⟨setting.1, setting.2, true⟩

/-- The database named in the handshake. -/
def chc_client_opts_database (dbname : Option Bytes) : Bytes :=
  dbname.getD (ascii "default")

end PgClickhouse
