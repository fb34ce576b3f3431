import Mathlib.Data.List.Induction
import PgClickhouse.Identifiers

/-!
# Paths into JSON columns

A key of `->` or `->>` becomes a member access, in `toJSONString` for `->`.  In a chain of
operators the access stands behind the string.

* `chain_iff`: a chain has the text of the path, and its value, just when it is one operator.
-/

namespace PgClickhouse.JsonPath

open QuotedToken (Escapes identifier)

/-! ## Operators -/

inductive custom_object_type
  | CF_JSON_FETCHVAL
  | CF_JSON_FETCHVAL_TEXT
  deriving Repr, DecidableEq

/-- A JSON column, or an operator with a text key. -/
inductive Node
  | Var
  | OpExpr (cf_type : custom_object_type) (arg1 : Node) (keyval : Bytes)
  deriving Repr, DecidableEq

/-- Whether the operator returns JSON. -/
def custom_object_type.wraps (cf_type : custom_object_type) : Bool :=
  cf_type == .CF_JSON_FETCHVAL

def text (q : IdentQuoting) (pieces : List Piece) : Bytes := pieces.flatMap (Piece.text q)

def deparseExpr (q : IdentQuoting) (column : Bytes) : Node → Bytes
  | .Var => column
  | .OpExpr cf_type arg1 keyval =>
      text q (deparseJsonFetchval (deparseExpr q column arg1) keyval cf_type.wraps)

/-- A chain of operators: all but the last return JSON. -/
structure Chain where
  inner : List Bytes
  last : Bytes
  cf_type : custom_object_type
  deriving Repr, DecidableEq

def fetches (inner : List Bytes) : Node := inner.foldl (.OpExpr .CF_JSON_FETCHVAL) .Var

def Chain.node (chain : Chain) : Node := .OpExpr chain.cf_type (fetches chain.inner) chain.last

def Chain.keys (chain : Chain) : List Bytes := chain.inner ++ [chain.last]

/-- The corresponding call of `jsonb_extract_path` or `jsonb_extract_path_text`. -/
def Chain.extractPath (q : IdentQuoting) (column : Bytes) (chain : Chain) : Bytes :=
  text q (deparseJsonbExtractPath column chain.keys chain.cf_type.wraps)

/-! ## Values -/

/-- What is sent: the column, a member access with the text of a key, or `toJSONString`. -/
inductive Emitted
  | column
  | member (arg : Emitted) (key : Bytes)
  | toJSONString (arg : Emitted)
  deriving Repr, DecidableEq

def Emitted.text (column : Bytes) : Emitted → Bytes
  | .column => column
  | .member arg key => arg.text column ++ ascii "." ++ key
  | .toJSONString arg => ascii "toJSONString(" ++ arg.text column ++ ascii ")"

def wrap (wraps : Bool) (arg : Emitted) : Emitted := if wraps then .toJSONString arg else arg

def Node.emitted (q : IdentQuoting) : Node → Emitted
  | .Var => .column
  | .OpExpr cf_type arg1 keyval =>
      wrap cf_type.wraps (.member (arg1.emitted q) (quote_identifier q keyval))

/-- The value at a path of a column, in so many calls of `toJSONString`. -/
structure Value where
  path : List Bytes
  strings : Nat
  deriving Repr, DecidableEq

/-- The member with a key, of which a string has none. -/
def Value.member (e : Escapes) (key : Bytes) (v : Value) : Option Value :=
  if v.strings ≠ 0 then none
  else match identifier e key with
    | some (name, []) => some ⟨v.path ++ [name], 0⟩
    | _ => none

/-- What a text denotes in ClickHouse. -/
def Emitted.denote (e : Escapes) : Emitted → Option Value
  | .column => some ⟨[], 0⟩
  | .member arg key => (arg.denote e).bind (Value.member e key)
  | .toJSONString arg => (arg.denote e).map fun v => { v with strings := v.strings + 1 }

/-- The value at the path of a chain, as JSON or as text. -/
def Chain.value (chain : Chain) : Value := ⟨chain.keys, if chain.cf_type.wraps then 1 else 0⟩

variable {e : Escapes} {q : IdentQuoting}

theorem fetchval_text (arg keyval : Bytes) (wraps : Bool) :
    text q (deparseJsonFetchval arg keyval wraps) =
      (if wraps then ascii "toJSONString(" else []) ++
        (arg ++ ascii "." ++ quote_identifier q keyval) ++ if wraps then ascii ")" else [] := by
  cases wraps <;> simp [text, deparseJsonFetchval, Piece.text]

theorem emitted_text (column : Bytes) (node : Node) :
    (node.emitted q).text column = deparseExpr q column node := by
  induction node with
  | Var => rfl
  | OpExpr cf_type arg1 keyval ih =>
      rw [deparseExpr, fetchval_text, Node.emitted, wrap, ← ih]
      cases cf_type.wraps
      · exact (List.append_nil _).symm
      · rfl

/-- Behind a call of `toJSONString` no member is found. -/
theorem member_string_none (arg : Emitted) (key : Bytes) :
    (Emitted.member (.toJSONString arg) key).denote e = none := by
  rw [Emitted.denote, Emitted.denote]
  cases arg.denote e with
  | none => rfl
  | some v => rfl

theorem fetches_concat (inner : List Bytes) (keyval : Bytes) :
    fetches (inner ++ [keyval]) = .OpExpr .CF_JSON_FETCHVAL (fetches inner) keyval := by
  rw [fetches, List.foldl_append]
  rfl

/-- A chain of two operators or more accesses a member of a string. -/
theorem denote_long {chain : Chain} (long : chain.inner ≠ []) :
    (chain.node.emitted q).denote e = none := by
  have access : ((fetches chain.inner).emitted q).denote e = none ∨
      ∃ arg, (fetches chain.inner).emitted q = .toJSONString arg := by
    rw [← List.dropLast_append_getLast long, fetches_concat]
    exact .inr ⟨_, rfl⟩
  have none : (Emitted.member ((fetches chain.inner).emitted q)
      (quote_identifier q chain.last)).denote e = none := by
    rcases access with nothing | ⟨arg, wrapped⟩
    · rw [Emitted.denote, nothing]
      rfl
    · rw [wrapped]
      exact member_string_none arg _
  rw [Chain.node, Node.emitted, wrap]
  cases chain.cf_type.wraps
  · exact none
  · rw [if_pos rfl, Emitted.denote, none]
    rfl

/-- One operator denotes the member if its key is read back. -/
theorem denote_single (last : Bytes) (cf_type : custom_object_type) :
    ((Chain.node ⟨[], last, cf_type⟩).emitted q).denote e = some (Chain.value ⟨[], last, cf_type⟩) ↔
      Intact e last := by
  have read := quote_identifier_iff (e := e) (q := q) last QuotedToken.delimits_nil
  rw [List.append_nil] at read
  rw [← read]
  have denoted : ((Chain.node ⟨[], last, cf_type⟩).emitted q).denote e =
      (Value.member e (quote_identifier q last) ⟨[], 0⟩).map fun v =>
        ⟨v.path, if cf_type.wraps then v.strings + 1 else v.strings⟩ := by
    rw [Chain.node, Node.emitted, wrap]
    cases cf_type.wraps
    · exact Option.map_id'.symm
    · rfl
  rw [denoted, Value.member, if_neg (by decide)]
  rcases identifier e (quote_identifier q last) with none | ⟨name, rest⟩
  · exact ⟨nofun, nofun⟩
  cases rest with
  | nil =>
      change some (Value.mk [name] _) = some (Value.mk [last] _) ↔ _
      simp
  | cons c rest =>
      refine ⟨nofun, fun same => ?_⟩
      simp at same

/-! ## Texts -/

theorem extractPath_text (column : Bytes) (chain : Chain) :
    chain.extractPath q column =
      (if chain.cf_type.wraps then ascii "toJSONString(" else []) ++
        (column ++ chain.keys.flatMap fun key => ascii "." ++ quote_identifier q key) ++
        if chain.cf_type.wraps then ascii ")" else [] := by
  have keys (l : List Bytes) : (l.flatMap fun key =>
      [Piece.sql (ascii "."), Piece.ident key]).flatMap (Piece.text q) =
        l.flatMap fun key => ascii "." ++ quote_identifier q key := by
    rw [List.flatMap_assoc]
    simp [Piece.text]
  unfold Chain.extractPath text deparseJsonbExtractPath
  cases chain.cf_type.wraps <;> simp [Piece.text, ← keys]

/-- The bytes of the accesses to some keys. -/
def accesses (q : IdentQuoting) (keys : List Bytes) : Nat :=
  (keys.flatMap fun key => ascii "." ++ quote_identifier q key).length

/-- Every inner operator adds a call of `toJSONString`. -/
theorem length_fetches (column : Bytes) (inner : List Bytes) :
    (deparseExpr q column (fetches inner)).length =
      column.length + accesses q inner + 14 * inner.length := by
  induction inner using List.reverseRecOn with
  | nil => rfl
  | append_singleton inner key ih =>
      have one : accesses q (inner ++ [key]) =
          accesses q inner + (ascii "." ++ quote_identifier q key).length := by
        rw [accesses, List.flatMap_append, List.length_append, List.flatMap_singleton]
        rfl
      have calls : (ascii "toJSONString(").length = 13 ∧ (ascii ")").length = 1 := by
        decide
      rw [fetches_concat, deparseExpr, fetchval_text, one]
      change (ascii "toJSONString(" ++ _ ++ ascii ")").length = _
      simp only [List.length_append, List.length_singleton, calls.1, calls.2] at ih ⊢
      omega

/-- The text of a chain is the text of the path for one operator only. -/
theorem text_iff (column : Bytes) (chain : Chain) :
    deparseExpr q column chain.node = chain.extractPath q column ↔ chain.inner = [] := by
  rw [Chain.node, deparseExpr, fetchval_text, extractPath_text]
  constructor
  · intro same
    have lengths := congrArg List.length same
    have inner := length_fetches (q := q) column chain.inner
    have keys : (chain.keys.flatMap fun key => ascii "." ++ quote_identifier q key).length =
        accesses q chain.inner + (ascii "." ++ quote_identifier q chain.last).length := by
      rw [Chain.keys, List.flatMap_append, List.length_append, List.flatMap_singleton]
      rfl
    simp only [List.length_append] at lengths keys
    rw [← List.length_eq_zero_iff]
    omega
  · intro single
    rw [single, Chain.keys, single]
    simp [fetches, deparseExpr]

/-- A chain has the text of the corresponding call, and denotes the value at the path, just when it
is one operator and its key is read back. -/
theorem chain_iff (e : Escapes) (q : IdentQuoting) (column : Bytes) (chain : Chain) :
    (chain.node.emitted q).text column = deparseExpr q column chain.node ∧
    (deparseExpr q column chain.node = chain.extractPath q column ↔ chain.inner = []) ∧
    ((chain.node.emitted q).denote e = some chain.value ↔
      chain.inner = [] ∧ Intact e chain.last) := by
  refine ⟨emitted_text column chain.node, text_iff column chain, ?_⟩
  obtain ⟨inner, last, cf_type⟩ := chain
  by_cases long : inner = []
  · subst long
    rw [denote_single, eq_self_iff_true, true_and]
  · rw [denote_long long]
    exact ⟨nofun, fun single => absurd single.1 long⟩

/-- The keys `a` and `b`: a member of a string. -/
theorem not_chain :
    ¬(∀ (e : Escapes) (q : IdentQuoting) (column : Bytes) (chain : Chain),
        deparseExpr q column chain.node = chain.extractPath q column ∧
          (chain.node.emitted q).denote e = some chain.value) ∧
      deparseExpr ⟨false, fun _ => false⟩ (ascii "data")
          (Chain.node ⟨[ascii "a"], ascii "b", .CF_JSON_FETCHVAL_TEXT⟩) =
        ascii "toJSONString(data.a).b" ∧
      Chain.extractPath ⟨false, fun _ => false⟩ (ascii "data")
          ⟨[ascii "a"], ascii "b", .CF_JSON_FETCHVAL_TEXT⟩ = ascii "data.a.b" := by
  refine ⟨fun same => ?_, by decide +kernel, by decide +kernel⟩
  have equal := (same Escapes.kept ⟨false, fun _ => false⟩ (ascii "data")
    ⟨[ascii "a"], ascii "b", .CF_JSON_FETCHVAL_TEXT⟩).1
  exact absurd equal (by decide +kernel)

end PgClickhouse.JsonPath
