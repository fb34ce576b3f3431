import PgClickhouse.Basic
import PgClickhouse.HttpText

/-!
# The HTTP request

`http.c` describes a query to libcurl: the URL with the query id and the settings, the
database in a header, and the statement in the body.  Every setting passes through one
buffer of 512 bytes.

What libcurl does with a part of the query string, and what the server reads back, is a
`CurlUrl`; `percentEncoded` is the concrete one.
-/

namespace PgClickhouse

/-- What the code relies on of a URL: a part that is appended with
`CURLU_APPENDQUERY | CURLU_URLENCODE` reaches the server as it is, split at its first
`=`. -/
structure CurlUrl where
  Url : Type
  /-- `curl_url_set` of the whole URL, which has no query yet. -/
  set_url : Bytes → Url
  /-- `curl_url_set` of a part of the query. -/
  append_query : Url → Bytes → Url
  /-- The names and values the server reads. -/
  params : Url → kv_list
  params_set_url : ∀ base, params (set_url base) = []
  params_append_query : ∀ url {part}, part ≠ [] →
    params (append_query url part) = params url ++ [HttpText.pairAt part]

/-- The URL as text, with the percent encoding of `HttpText`. -/
def percentEncoded : CurlUrl where
  Url := Bytes × Bytes
  set_url base := (base, [])
  append_query url part := (url.1, HttpText.append url.2 part)
  params url := HttpText.params url.2
  params_set_url _ := rfl
  params_append_query url _ nonempty := HttpText.params_append url.2 nonempty

/-- `snprintf` into `char temp_buf[512]` keeps 511 bytes. -/
def temp_buf (text : Bytes) : Bytes := text.take 511

/-- `"%s=%s"`. -/
def setting_text (setting : Bytes × Bytes) : Bytes :=
  setting.1 ++ ascii "=" ++ setting.2

structure ch_http_connection_t where
  base_url : Bytes
  dbname : Option Bytes
  deriving Repr, DecidableEq

/-- What `uuid_unparse` writes. -/
abbrev QueryId := { text : Bytes // text.length = 36 }

/-- One request: the statement, and the settings its caller pins. -/
structure ch_http_request where
  query : ch_query
  overrides : kv_list
  stream_chunks : Bool
  deriving Repr, DecidableEq

/-- True when an override replaces the user setting of this name. -/
def is_overridden (req : ch_http_request) (name : Bytes) : Bool :=
  req.overrides.any fun override => override.1 == name

/-- The body of the request: posted bytes, or a form of named parts. -/
inductive PostBody
  | fields (bytes : Bytes)
  | form (parts : List (Bytes × Option Bytes))
  deriving Repr, DecidableEq

/-- What the easy handle is told. -/
structure Curl (t : CurlUrl) where
  url : t.Url
  headers : List Bytes
  post : PostBody

def DATABASE_HEADER : Bytes := ascii "X-ClickHouse-Database"

/-- The user settings that are sent: those no override replaces. -/
def sent_settings (req : ch_http_request) : kv_list :=
  req.query.settings.filter fun setting => !is_overridden req setting.1

/-- Configure the easy handle for this query. -/
def setup_curl (t : CurlUrl) (conn : ch_http_connection_t) (req : ch_http_request)
    (query_id : QueryId) : Curl t where
  url :=
    let url := t.append_query (t.set_url conn.base_url)
      (temp_buf (setting_text (ascii "query_id", query_id.val)))
    let url := (sent_settings req).foldl
      (fun url setting => t.append_query url (temp_buf (setting_text setting))) url
    req.overrides.foldl
      (fun url setting => t.append_query url (temp_buf (setting_text setting))) url
  headers := match conn.dbname with
    | some dbname => [temp_buf (DATABASE_HEADER ++ ascii ": " ++ dbname)]
    | none => []
  post := match req.query.body with
    | some body => .fields body
    | none =>
        if req.query.param_values = [] then .fields req.query.sql
        else .form ((ascii "query", some req.query.sql) ::
          req.query.param_values.mapIdx fun i value =>
            (temp_buf (ascii "param_p" ++ decimal (i + 1)), value))

/-- The settings the shared decoder needs from a Native response.  `timezone` is the
session's time zone. -/
def native_overrides (version : ch_server_version) (timezone : Bytes) : kv_list :=
  (ascii "default_format", ascii "Native") ::
    ((if chfdw_version_ge version 24 7 then
        [(ascii "output_format_native_encode_types_in_binary_format", ascii "0")] else []) ++
      (if chfdw_version_ge version 24 10 then
        [(ascii "output_format_native_write_json_as_string", ascii "1")] else []) ++
      (if chfdw_version_ge version 23 6 then [(ascii "session_timezone", timezone)] else []))

/-- The settings the text parsers need from a TabSeparated response. -/
def tsv_overrides : kv_list := [
  (ascii "date_time_output_format", ascii "iso"),
  (ascii "format_tsv_null_representation", ascii "\\N"),
  (ascii "output_format_tsv_crlf_end_of_line", ascii "0")]

end PgClickhouse
