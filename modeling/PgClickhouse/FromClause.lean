import PgClickhouse.Basic
import Mathlib.Tactic.Common

/-!
# FROM clauses of a ClickHouse statement

ClickHouse reads a FROM clause from left to right.  An element is a table or a
parenthesized subquery; each JOIN takes everything before it as its left side, the next
element as its right side and the ON clause that follows it.  Parentheses around a join
are not part of this grammar.

The text is given as tokens.  A name is one token, and so is an expression, whose text is
of no interest here.
-/

namespace PgClickhouse

/-- The join types that are pushed down. -/
inductive JoinType
  | INNER
  | LEFT
  | FULL
  | RIGHT
  | SEMI
  | ANTI
  deriving Repr, DecidableEq

/-- The tokens of a FROM clause over expressions of type `ε`. -/
inductive Token (ε : Type)
  | SELECT
  | FROM
  | WHERE
  | AND
  | ON
  | JOIN
  | ALL
  | INNER
  | LEFT
  | RIGHT
  | FULL
  | SEMI
  | ANTI
  | NULL
  | TRUE
  | lparen
  | rparen
  | comma
  | relation (dbname relname : Bytes)
  | rel_alias (n : Nat)
  | subquery_alias (n : Nat)
  | column_alias (n : Nat)
  | expr (e : ε)
  deriving Repr, DecidableEq

/-- What a FROM clause says.  An empty ON list stands for `(TRUE)`. -/
inductive FromItem (ε : Type)
  | table (dbname relname : Bytes) (rel_alias : Option Nat)
  | subquery (targets : List ε) (scan : FromItem ε) (quals : List ε) (subquery_alias : Nat)
      (columns : List Nat)
  | join (jointype : JoinType) (outer inner : FromItem ε) (joinclauses : List ε)
  deriving Repr, DecidableEq

namespace FromItem

variable {ε : Type}

def isJoin : FromItem ε → Bool
  | .join .. => true
  | _ => false

/-- The joins that can be written without parentheses. -/
def LeftNested : FromItem ε → Prop
  | .table .. => True
  | .subquery _ scan _ _ _ => scan.LeftNested
  | .join _ outer inner _ => inner.isJoin = false ∧ outer.LeftNested ∧ inner.LeftNested

end FromItem

/-! ## The reader -/

namespace FromClause

variable {ε : Type}

/-- The keywords of a join: `ALL` may be left out but not before SEMI and ANTI. -/
def joinKind : List (Token ε) → Option (JoinType × List (Token ε))
  | .ALL :: .INNER :: .JOIN :: ts | .INNER :: .JOIN :: ts => some (.INNER, ts)
  | .ALL :: .LEFT :: .JOIN :: ts | .LEFT :: .JOIN :: ts => some (.LEFT, ts)
  | .ALL :: .RIGHT :: .JOIN :: ts | .RIGHT :: .JOIN :: ts => some (.RIGHT, ts)
  | .ALL :: .FULL :: .JOIN :: ts | .FULL :: .JOIN :: ts => some (.FULL, ts)
  | .LEFT :: .SEMI :: .JOIN :: ts => some (.SEMI, ts)
  | .LEFT :: .ANTI :: .JOIN :: ts => some (.ANTI, ts)
  | _ => none

/-- Conditions, each in parentheses, connected by AND. -/
def conditions : List (Token ε) → Option (List ε × List (Token ε))
  | .lparen :: .expr e :: .rparen :: .AND :: ts =>
      (conditions ts).map fun (es, ts) => (e :: es, ts)
  | .lparen :: .expr e :: .rparen :: ts => some ([e], ts)
  | _ => none

/-- The condition of a join, in parentheses. -/
def onClause : List (Token ε) → Option (List ε × List (Token ε))
  | .ON :: .lparen :: .TRUE :: .rparen :: ts => some ([], ts)
  | .ON :: .lparen :: ts =>
      (conditions ts).bind fun
        | (es, .rparen :: ts) => some (es, ts)
        | _ => none
  | _ => none

def whereClause : List (Token ε) → Option (List ε × List (Token ε))
  | .WHERE :: ts => conditions ts
  | ts => some ([], ts)

/-- A select list. -/
def targets : List (Token ε) → Option (List ε × List (Token ε))
  | .NULL :: ts => some ([], ts)
  | .expr e :: .comma :: ts => (targets ts).map fun (es, ts) => (e :: es, ts)
  | .expr e :: ts => some ([e], ts)
  | _ => none

/-- Column aliases up to the closing parenthesis. -/
def columnNames : List (Token ε) → Option (List Nat × List (Token ε))
  | .column_alias n :: .comma :: ts => (columnNames ts).map fun (ns, ts) => (n :: ns, ts)
  | .column_alias n :: .rparen :: ts => some ([n], ts)
  | _ => none

/-- The alias of a subquery with its column aliases, if it has any. -/
def subqueryAlias : List (Token ε) → Option ((Nat × List Nat) × List (Token ε))
  | .subquery_alias n :: .lparen :: ts =>
      (columnNames ts).map fun (ns, ts) => ((n, ns), ts)
  | .subquery_alias n :: ts => some ((n, []), ts)
  | _ => none

mutual

/-- A table or a subquery. -/
def element : Nat → List (Token ε) → Option (FromItem ε × List (Token ε))
  | 0, _ => none
  | fuel + 1, ts =>
      match ts with
      | .relation dbname relname :: .rel_alias n :: ts =>
          some (.table dbname relname (some n), ts)
      | .relation dbname relname :: ts => some (.table dbname relname none, ts)
      | .lparen :: .SELECT :: ts =>
          (targets ts).bind fun
            | (es, .FROM :: ts) =>
                (element fuel ts).bind fun (first, ts) =>
                  (joins fuel first ts).bind fun (scan, ts) =>
                    (whereClause ts).bind fun
                      | (quals, .rparen :: ts) =>
                          (subqueryAlias ts).map fun ((n, ns), ts) =>
                            (.subquery es scan quals n ns, ts)
                      | _ => none
            | _ => none
      | _ => none

/-- The joins that follow what was read so far. -/
def joins : Nat → FromItem ε → List (Token ε) → Option (FromItem ε × List (Token ε))
  | 0, _, _ => none
  | fuel + 1, outer, ts =>
      match joinKind ts with
      | none => some (outer, ts)
      | some (jointype, ts) =>
          (element fuel ts).bind fun (inner, ts) =>
            (onClause ts).bind fun (joinclauses, ts) =>
              joins fuel (.join jointype outer inner joinclauses) ts

end

/-- An element and the joins after it. -/
def clause (fuel : Nat) (ts : List (Token ε)) : Option (FromItem ε × List (Token ε)) :=
  (element fuel ts).bind fun (first, ts) => joins fuel first ts

/-- Read a whole FROM clause; the fuel is more than the depth the text can have. -/
def read (ts : List (Token ε)) : Option (FromItem ε) :=
  match clause (ts.length + 1) ts with
  | some (item, []) => some item
  | _ => none

end FromClause

end PgClickhouse
