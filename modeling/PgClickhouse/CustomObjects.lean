import Mathlib.Logic.Function.Basic
import PgClickhouse.Basic
import PgClickhouse.Raising

/-!
# Custom objects

Functions, types and operators outside the server are classified by the extension they
belong to: whether ClickHouse has them, and how they are written there.  The answers are kept
in a hash table by `Oid` until a change to the catalogs, and the table is dropped at the end
of the transaction that sees the change.

A lookup in the catalogs may raise, which leaves the table as it is at that moment.
-/

namespace PgClickhouse.CustomObjects

/-! ## Classification -/

inductive custom_object_type
  | CF_USUAL
  | CF_SIGN_SUM
  | CF_SIGN_AVG
  | CF_SIGN_COUNT
  | CF_DATE_TRUNC
  | CF_DATE_PART
  | CF_DATETIME_PL_INTERVAL
  | CF_DATETIME_MI_INTERVAL
  | CF_TIMEZONE
  | CF_HSTORE_FETCHVAL
  | CF_INTARRAY_IDX
  | CF_CH_FUNCTION
  | CF_MATCH
  | CF_SPLIT_BY_REGEX
  | CF_REPLACE_REGEX
  | CF_REGEX_MATCH
  | CF_REGEX_PG_MATCH
  | CF_REGEX_NO_MATCH
  | CF_REGEX_ICASE_MATCH
  | CF_REGEX_ICASE_NO_MATCH
  | CF_JSON_FETCHVAL
  | CF_JSON_FETCHVAL_TEXT
  | CF_JSON_EXTRACT_PATH_TEXT
  | CF_JSON_EXTRACT_PATH
  | CF_STRING_AGG
  | CF_CURRENT_DATABASE
  | CF_CURRENT_SCHEMA
  | CF_CLOCK_TIMESTAMP
  | CF_TO_TIMESTAMP
  | CF_ARRAY_LENGTH
  | CF_ARRAY_POSITION
  | CF_ARRAY_PREPEND
  | CF_STRING_TO_ARRAY
  | CF_STRING_TO_ARRAY_PART
  | CF_TRIM_ARRAY
  | CF_ARRAY_SORT_DESC
  | CF_ARRAY_FILL
  | CF_ARRAY_CONTAINED_BY
  | CF_TO_CHAR
  | CF_PARAM_LIST_AGG
  | CF_ENCODE
  | CF_DIGEST
  | CF_REGR_AGG
  | CF_PGVECTOR
  | CF_VECTOR_NEG_IP
  | CF_VECTOR_DOT
  | CF_OPERATOR_FUNC
  deriving Repr, DecidableEq

/-- An entry of the table, without its key. -/
structure CustomObjectDef where
  cf_type : custom_object_type
  custom_name : Bytes
  paren_count : Nat
  deriving Repr, DecidableEq

def init_custom_entry : CustomObjectDef where
  cf_type := .CF_USUAL
  custom_name := []
  paren_count := 1

def NAMEDATALEN : Nat := 64

def strlcpy (name : Bytes) : Bytes :=
  name.take (NAMEDATALEN - 1)

structure builtin_func_def where
  cf_type : custom_object_type
  ch_name : Option Bytes
  paren_count : Nat

/-- The tables of built-in functions, by numbers that the build of the server gives:
`lookup_builtin_func`, and `classify_builtin_operator` by `get_opcode`. -/
structure Builtins where
  lookup_builtin_func : Nat → Option builtin_func_def
  classify_builtin_operator : Nat → custom_object_type × Option Bytes

def FirstUnpinnedObjectId : Nat := 12000

def chfdw_is_builtin (objectId : Nat) : Bool :=
  objectId < FirstUnpinnedObjectId

def re2_func_map : List (Bytes × Bytes) :=
  [("countmatches", "countMatches"),
    ("countmatchescaseinsensitive", "countMatchesCaseInsensitive"),
    ("extractall", "extractAll"),
    ("extractallgroupshorizontal", "extractAllGroupsHorizontal"),
    ("extractallgroupsvertical", "extractAllGroupsVertical"),
    ("extractgroups", "extractGroups"),
    ("multimatchallindices", "multiMatchAllIndices"),
    ("multimatchany", "multiMatchAny"),
    ("multimatchanyindex", "multiMatchAnyIndex"),
    ("regexpextract", "regexpExtract"),
    ("regexpquotemeta", "regexpQuoteMeta"),
    ("replaceregexpall", "replaceRegexpAll"),
    ("replaceregexpone", "replaceRegexpOne"),
    ("splitbyregexp", "splitByRegexp")].map fun (name, ch_name) => (ascii name, ascii ch_name)

/-- The prefix `re2` is dropped. -/
def re2_func_name (proname : Bytes) : Bytes :=
  let stripped := proname.drop 3
  (re2_func_map.lookup stripped).getD stripped

def ch_func_map : List (Bytes × Bytes) :=
  [("argmax", "argMax"), ("argmin", "argMin"), ("dictget", "dictGet"), ("quantile", "quantile"),
    ("quantileexact", "quantileExact"), ("touint128", "toUInt128"), ("touint16", "toUInt16"),
    ("touint32", "toUInt32"), ("touint64", "toUInt64"), ("touint8", "toUInt8"),
    ("uniq", "uniq"), ("uniqcombined", "uniqCombined"), ("uniqcombined64", "uniqCombined64"),
    ("uniqexact", "uniqExact"), ("uniqhll12", "uniqHLL12"),
    ("uniqtheta", "uniqTheta")].map fun (name, ch_name) => (ascii name, ascii ch_name)

def ch_func_name (proname : Bytes) : Option Bytes :=
  ch_func_map.lookup proname

/-! ## Catalogs -/

/-- The catalog an object is in.  An `Oid` is unique only there. -/
inductive Class
  | ProcedureRelationId
  | TypeRelationId
  | OperatorRelationId
  deriving Repr, DecidableEq

structure Form_pg_proc where
  proname : Bytes
  proargtypes : List Nat
  prorettype : Nat
  deriving Repr, DecidableEq

structure Form_pg_operator where
  oprname : Bytes
  oprleft : Nat
  oprright : Nat
  deriving Repr, DecidableEq

/-- The contents of the catalogs; `InvalidOid` is 0. -/
structure Catalog where
  getExtensionOfObject : Class → Nat → Nat
  get_extension_name : Nat → Option Bytes
  get_element_type : Nat → Nat
  pgch_is_pgvector_type : Nat → Bool
  get_opcode : Nat → Nat
  PROCOID : Nat → Option Form_pg_proc
  OPEROID : Nat → Option Form_pg_operator

/-- `made` is a history: which catalog an entry was entered for, and what the catalogs held
then.  Nothing reads it.  `raise` counts the lookups before one that raises. -/
structure Session where
  custom_objects_cache : Option (Nat → Option CustomObjectDef)
  custom_objects_stale : Bool
  made : Nat → Option (Class × Catalog)
  raise : Option Nat

def Session.empty : Session where
  custom_objects_cache := none
  custom_objects_stale := false
  made _ := none
  raise := none

/-- An error needs no text here. -/
abbrev M := EStateM Unit Session

/-- A lookup in the catalogs. -/
def lookup {α : Type} (value : α) : M α := fun s =>
  match s.raise with
  | none => .ok value s
  | some 0 => .error () s
  | some (n + 1) => .ok value { s with raise := some n }

/-! ## The table -/

namespace Session

/-- The entry of an identifier. -/
def entry (s : Session) (oid : Nat) : Option CustomObjectDef :=
  s.custom_objects_cache.bind fun table => table oid

def create (s : Session) : Session :=
  if s.custom_objects_cache.isNone then
    { s with custom_objects_cache := some fun _ => none, custom_objects_stale := false }
  else s

def put (s : Session) (oid : Nat) (entry : Option CustomObjectDef)
    (made : Option (Class × Catalog)) : Session :=
  { s with
    custom_objects_cache := s.custom_objects_cache.map fun table =>
      Function.update table oid entry
    made := Function.update s.made oid made }

end Session

def create_custom_objects_cache : M Unit :=
  modify Session.create

def HASH_FIND (oid : Nat) : M (Option CustomObjectDef) := do
  return (← get).entry oid

/-- Add an entry or write to it. -/
def HASH_ENTER (classId : Class) (catalog : Catalog) (oid : Nat) (entry : CustomObjectDef) :
    M Unit :=
  modify fun s => s.put oid (some entry) (some (classId, catalog))

def HASH_REMOVE (oid : Nat) : M Unit :=
  modify fun s => s.put oid none none

/-! ## Classifiers -/

section

variable (builtins : Builtins) (catalog : Catalog)

def chfdw_check_for_custom_type (typeoid : Nat) : M (Option CustomObjectDef) := do
  create_custom_objects_cache
  if chfdw_is_builtin typeoid then return none
  match ← HASH_FIND typeoid with
  | some entry => return some entry
  | none =>
      let elemoid ← lookup (catalog.get_element_type typeoid)
      let extoid ← lookup (catalog.getExtensionOfObject .TypeRelationId
        (if elemoid ≠ 0 then elemoid else typeoid))
      match ← lookup (catalog.get_extension_name extoid) with
      | some extname =>
          let vector ← lookup (catalog.pgch_is_pgvector_type typeoid)
          if !(extname == ascii "hstore" || vector) then return none
          let entry := { init_custom_entry with
            cf_type := if vector then .CF_PGVECTOR else .CF_USUAL }
          HASH_ENTER .TypeRelationId catalog typeoid entry
          return some entry
      | none =>
          HASH_ENTER .TypeRelationId catalog typeoid init_custom_entry
          return some init_custom_entry

def chfdw_is_pgvector_type (typid : Nat) : M Bool := do
  match ← chfdw_check_for_custom_type catalog typid with
  | some cdef => return cdef.cf_type = .CF_PGVECTOR
  | none => return false

/-- Whether all arguments are vectors. -/
def all_pgvector : List Nat → M Bool
  | [] => return true
  | typid :: rest => do
      if ← chfdw_is_pgvector_type catalog typid then all_pgvector rest else return false

/-- The kind and name of a pgvector function of vectors. -/
def pgvector_function_name (procform : Form_pg_proc) : Option (custom_object_type × Bytes) :=
  if procform.proargtypes.length = 2 then
    if procform.proname = ascii "l2_distance" then some (.CF_CH_FUNCTION, ascii "L2Distance")
    else if procform.proname = ascii "cosine_distance" then
      some (.CF_CH_FUNCTION, ascii "cosineDistance")
    else if procform.proname = ascii "l1_distance" then
      some (.CF_CH_FUNCTION, ascii "L1Distance")
    else if procform.proname = ascii "inner_product" then
      some (.CF_VECTOR_DOT, ascii "dotProduct")
    else none
  else if procform.proargtypes.length = 1 ∧ procform.proname = ascii "vector_dims" then
    some (.CF_CH_FUNCTION, ascii "length")
  else none

def pgvector_function (procform : Form_pg_proc) : M (Option CustomObjectDef) := do
  if ← all_pgvector catalog procform.proargtypes then
    return (pgvector_function_name procform).map fun (cf_type, ch_name) =>
      { init_custom_entry with cf_type := cf_type, custom_name := strlcpy ch_name }
  else return none

def TEXTOID : Nat := 25

def BYTEAOID : Nat := 17

/-- `digest(text | bytea, text)`. -/
def is_digest (procform : Form_pg_proc) : Bool :=
  procform.proname == ascii "digest" && procform.prorettype == BYTEAOID &&
    match procform.proargtypes with
    | [data, algorithm] => (data == TEXTOID || data == BYTEAOID) && algorithm == TEXTOID
    | _ => false

/-- A function of an extension other than pgvector. -/
def extension_function (extname : Bytes) (procform : Form_pg_proc) : Option CustomObjectDef :=
  let proname := procform.proname
  if extname = ascii "intarray" ∧ proname = ascii "idx" then
    some { init_custom_entry with cf_type := .CF_INTARRAY_IDX, custom_name := ascii "indexOf" }
  else if extname = ascii "re2" then
    some { init_custom_entry with
      cf_type := .CF_CH_FUNCTION, custom_name := strlcpy (re2_func_name proname) }
  else if extname = ascii "fuzzystrmatch" then
    if proname = ascii "levenshtein" ∧ procform.proargtypes.length = 2 then
      some { init_custom_entry with custom_name := ascii "editDistanceUTF8" }
    else if proname = ascii "soundex" then some init_custom_entry
    else none
  else if extname = ascii "pgcrypto" ∧ is_digest procform then
    some { init_custom_entry with cf_type := .CF_DIGEST, custom_name := [1] }
  else if extname = ascii "pg_clickhouse" then
    (ch_func_name proname).map fun ch_name =>
      { init_custom_entry with cf_type := .CF_CH_FUNCTION, custom_name := strlcpy ch_name }
  else none

def builtin_function (func : builtin_func_def) : CustomObjectDef where
  cf_type := func.cf_type
  custom_name := strlcpy (func.ch_name.getD [])
  paren_count := func.paren_count

/-- The entry is entered before the lookups and removed where there is no answer. -/
def chfdw_check_for_custom_function (funcid : Nat) : M (Option CustomObjectDef) := do
  let is_builtin := chfdw_is_builtin funcid
  let func := if is_builtin then builtins.lookup_builtin_func funcid else none
  if is_builtin ∧ func.isNone then return none
  create_custom_objects_cache
  match ← HASH_FIND funcid with
  | some entry => return some entry
  | none =>
      HASH_ENTER .ProcedureRelationId catalog funcid init_custom_entry
      match func with
      | some func =>
          HASH_ENTER .ProcedureRelationId catalog funcid (builtin_function func)
          return some (builtin_function func)
      | none =>
          let extoid ← lookup (catalog.getExtensionOfObject .ProcedureRelationId funcid)
          match ← lookup (catalog.get_extension_name extoid) with
          | none =>
              HASH_REMOVE funcid
              return none
          | some extname =>
              match ← lookup (catalog.PROCOID funcid) with
              | none => throw ()
              | some procform =>
                  let answer ←
                    if extname = ascii "vector" then pgvector_function catalog procform
                    else pure (extension_function extname procform)
                  match answer with
                  | some entry =>
                      HASH_ENTER .ProcedureRelationId catalog funcid entry
                      return some entry
                  | none =>
                      HASH_REMOVE funcid
                      return none

def pgvector_operator_type (oprname : Bytes) : Option (custom_object_type × Option Bytes) :=
  if oprname = ascii "=" ∨ oprname = ascii "<>" then some (.CF_USUAL, none)
  else if oprname = ascii "<#>" then some (.CF_VECTOR_NEG_IP, none)
  else if oprname = ascii "<->" then some (.CF_OPERATOR_FUNC, some (ascii "L2Distance"))
  else if oprname = ascii "<=>" then some (.CF_OPERATOR_FUNC, some (ascii "cosineDistance"))
  else if oprname = ascii "<+>" then some (.CF_OPERATOR_FUNC, some (ascii "L1Distance"))
  else none

/-- An operator of an extension: its type and name. -/
def extension_operator (extname : Option Bytes) (form : Form_pg_operator) :
    M (Option (custom_object_type × Option Bytes)) := do
  if extname = some (ascii "hstore") ∧ form.oprname = ascii "->" then
    return some (.CF_HSTORE_FETCHVAL, none)
  else if extname = some (ascii "re2") ∧ form.oprname = ascii "@~" then
    return some (.CF_OPERATOR_FUNC, some (ascii "match"))
  else if extname = some (ascii "vector") ∧ (pgvector_operator_type form.oprname).isSome then
    if ← all_pgvector catalog [form.oprleft, form.oprright] then
      return pgvector_operator_type form.oprname
    else return none
  else return none

def operator_entry (answer : custom_object_type × Option Bytes) : CustomObjectDef :=
  { init_custom_entry with cf_type := answer.1, custom_name := strlcpy (answer.2.getD []) }

/-- The row of an operator, which some callers pass. -/
def operator_form (opoid : Nat) (form : Option Form_pg_operator) : M Form_pg_operator := do
  match form with
  | some form => return form
  | none =>
      match ← lookup (catalog.OPEROID opoid) with
      | some form => return form
      | none => throw ()

/-- What `classify_builtin_operator` says of a built-in operator. -/
def builtin_operator (opoid : Nat) : M (custom_object_type × Option Bytes) := do
  if chfdw_is_builtin opoid then
    let opcode ← lookup (catalog.get_opcode opoid)
    return builtins.classify_builtin_operator opcode
  else return (.CF_USUAL, none)

/-- The type and name of an operator that has no entry. -/
def operator_type (opoid : Nat) (builtin : custom_object_type × Option Bytes)
    (form : Form_pg_operator) : M (Option (custom_object_type × Option Bytes)) := do
  if builtin.1 ≠ .CF_USUAL then return some builtin
  else
    let extoid ← lookup (catalog.getExtensionOfObject .OperatorRelationId opoid)
    let extname ← lookup (catalog.get_extension_name extoid)
    extension_operator catalog extname form

def chfdw_check_for_custom_operator (opoid : Nat) (form : Option Form_pg_operator) :
    M (Option CustomObjectDef) := do
  create_custom_objects_cache
  let builtin ← builtin_operator builtins catalog opoid
  if chfdw_is_builtin opoid ∧ builtin.1 = .CF_USUAL then return none
  let form ← operator_form catalog opoid form
  match ← HASH_FIND opoid with
  | some entry => return some entry
  | none =>
      HASH_ENTER .OperatorRelationId catalog opoid init_custom_entry
      match ← operator_type catalog opoid builtin form with
      | some answer =>
          HASH_ENTER .OperatorRelationId catalog opoid (operator_entry answer)
          return some (operator_entry answer)
      | none =>
          HASH_REMOVE opoid
          return none

end

end PgClickhouse.CustomObjects
