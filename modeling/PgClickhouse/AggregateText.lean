import Mathlib.Algebra.BigOperators.Group.Multiset.Basic
import Mathlib.Algebra.Order.Ring.Rat
import Mathlib.Data.Multiset.Dedup
import PgClickhouse.Basic

/-!
# Aggregates as they are emitted

What `deparseAggref` emits for an aggregate, with the texts of its argument, of its FILTER
condition and of the sign column as single lexemes, and what ClickHouse makes of it: the
lexemes are read with the precedence of its operators and evaluated over a group of rows.

Partial aggregates are emitted as arrays with the transition states of PostgreSQL.
-/

namespace PgClickhouse.Aggregate

/-! ## The catalogs -/

inductive CHRemoteTableEngine
  | CH_DEFAULT
  | CH_COLLAPSING_MERGE_TREE
  | CH_AGGREGATING_MERGE_TREE
  deriving Repr, DecidableEq

/-- Of a scan, its engine and its sign column. -/
structure CHFdwRelationInfo where
  ch_table_engine : CHRemoteTableEngine
  ch_table_sign_field : Bytes
  deriving Repr, DecidableEq

/-- The argument of `sum` and its kin. -/
inductive ArgType
  | int2
  | int4
  | int8
  | numeric
  | float4
  | float8
  deriving Repr, DecidableEq

/-- Aggregate functions.  `stat` are the variances and deviations, `direct` those whose
transition value is the result. -/
inductive AggFn
  | count
  | sum (type : ArgType)
  | avg (type : ArgType)
  | stat (proname : Bytes) (type : ArgType)
  | direct (proname : Bytes)
  deriving Repr, DecidableEq

inductive TransFn
  | INT2_AVG_ACCUM
  | INT4_AVG_ACCUM
  | FLOAT4_ACCUM
  | FLOAT8_ACCUM
  | other
  deriving Repr, DecidableEq

/-- A row of `pg_aggregate`: which functions it names. -/
structure Form_pg_aggregate where
  aggtransfn : TransFn
  aggcombinefn : Bool
  aggfinalfn : Bool
  aggserialfn : Bool
  deriving Repr, DecidableEq

/-- `pg_aggregate`.  Sums and averages of `int8` and `numeric` have a state of type
`internal`, and so have the deviations of integers. -/
def AggFn.form : AggFn → Form_pg_aggregate
  | .count => ⟨.other, true, false, false⟩
  | .direct _ => ⟨.other, true, false, false⟩
  | .sum .int8 => ⟨.other, true, true, true⟩
  | .sum .numeric => ⟨.other, true, true, true⟩
  | .sum _ => ⟨.other, true, false, false⟩
  | .avg .int2 => ⟨.INT2_AVG_ACCUM, true, true, false⟩
  | .avg .int4 => ⟨.INT4_AVG_ACCUM, true, true, false⟩
  | .avg .float4 => ⟨.FLOAT4_ACCUM, true, true, false⟩
  | .avg .float8 => ⟨.FLOAT8_ACCUM, true, true, false⟩
  | .avg _ => ⟨.other, true, true, true⟩
  | .stat _ .float4 => ⟨.FLOAT4_ACCUM, true, true, false⟩
  | .stat _ .float8 => ⟨.FLOAT8_ACCUM, true, true, false⟩
  | .stat _ _ => ⟨.other, true, true, true⟩

def AggFn.proname : AggFn → Bytes
  | .count => ascii "count"
  | .sum _ => ascii "sum"
  | .avg _ => ascii "avg"
  | .stat proname _ => proname
  | .direct proname => proname

inductive AggSplit
  | AGGSPLIT_SIMPLE
  | AGGSPLIT_INITIAL_SERIAL
  deriving Repr, DecidableEq

/-- An aggregate of kind `AGGKIND_NORMAL` without VARIADIC and ORDER BY.  Only `count` has a
star, and then no DISTINCT. -/
structure Aggref where
  aggfnoid : AggFn
  aggsplit : AggSplit
  aggdistinct : Bool
  aggfilter : Bool
  aggstar : Bool
  star : aggstar = true → aggfnoid = .count ∧ aggdistinct = false
  deriving DecidableEq

inductive AggPartialKind
  | AGG_PARTIAL_NONE
  | AGG_PARTIAL_DIRECT
  | AGG_PARTIAL_AVG_INT
  | AGG_PARTIAL_STAT_FLOAT
  deriving Repr, DecidableEq

def agg_partial_kind (agg : Aggref) : AggPartialKind :=
  let aggform := agg.aggfnoid.form
  if agg.aggdistinct then .AGG_PARTIAL_NONE
  else if !aggform.aggcombinefn then .AGG_PARTIAL_NONE
  else if !aggform.aggfinalfn && !aggform.aggserialfn then .AGG_PARTIAL_DIRECT
  else if !aggform.aggserialfn then
    match aggform.aggtransfn with
    | .INT2_AVG_ACCUM => .AGG_PARTIAL_AVG_INT
    | .INT4_AVG_ACCUM => .AGG_PARTIAL_AVG_INT
    | .FLOAT4_ACCUM => .AGG_PARTIAL_STAT_FLOAT
    | .FLOAT8_ACCUM => .AGG_PARTIAL_STAT_FLOAT
    | .other => .AGG_PARTIAL_NONE
  else .AGG_PARTIAL_NONE

/-- What `foreign_expr_walker` asks of an aggregate besides its arguments. -/
def Aggref.shippable (agg : Aggref) : Bool :=
  (agg.aggsplit = .AGGSPLIT_SIMPLE || agg_partial_kind agg ≠ .AGG_PARTIAL_NONE) &&
    !(agg.aggdistinct && agg.aggfilter)

/-! ## Text -/

inductive Lexeme
  | word (name : Bytes)
  | number (n : Nat)
  | lparen
  | rparen
  | lbracket
  | rbracket
  | comma
  | star
  | slash
  | minus
  | greater
  | DISTINCT
  | AND
  | IS_NOT_NULL
  | arg
  | aggfilter
  | sign
  deriving Repr, DecidableEq

inductive CustomFunctionType
  | CF_SIGN_SUM
  | CF_SIGN_AVG
  | CF_SIGN_COUNT
  deriving Repr, DecidableEq

/-- The sign rewriting is chosen by the engine of the scan. -/
def appendFunctionName (aggfnoid : AggFn) (fpinfo : CHFdwRelationInfo) :
    Option CustomFunctionType × Bytes :=
  if fpinfo.ch_table_engine = .CH_COLLAPSING_MERGE_TREE then
    match aggfnoid with
    | .sum _ => (some .CF_SIGN_SUM, ascii "sum")
    | .avg _ => (some .CF_SIGN_AVG, ascii "sum")
    | .count => (some .CF_SIGN_COUNT, ascii "sum")
    | .stat proname _ => (none, proname)
    | .direct proname => (none, proname)
  else (none, aggfnoid.proname)

/-- `f(arg)` and `fIf(arg, (filter) > 0)`, of an argument that was captured. -/
def component (agg : Aggref) (name : Bytes) (arg : List Lexeme) : List Lexeme :=
  if agg.aggfilter then
    [Lexeme.word (name ++ ascii "If"), .lparen] ++ arg ++
      [Lexeme.comma, .lparen, .aggfilter, .rparen, .greater, .number 0, .rparen]
  else [Lexeme.word name, .lparen] ++ arg ++ [Lexeme.rparen]

def deparsePartialStatArray (agg : Aggref) (kind : AggPartialKind) : List Lexeme :=
  let toFloat64 : List Lexeme := [.word (ascii "toFloat64"), .lparen, .arg, .rparen]
  let count := component agg (ascii "count") [.arg]
  let call (name : Bytes) (args : List Lexeme) : List Lexeme :=
    [Lexeme.word name, .lparen] ++ args ++ [Lexeme.rparen]
  if kind = .AGG_PARTIAL_AVG_INT then
    [Lexeme.lbracket] ++ call (ascii "toInt64") count ++ [Lexeme.comma] ++
      call (ascii "toInt64") (component agg (ascii "sum") [.arg]) ++ [Lexeme.rbracket]
  else
    [Lexeme.lbracket] ++ call (ascii "toFloat64") count ++ [Lexeme.comma] ++
      component agg (ascii "sum") toFloat64 ++ [Lexeme.comma] ++
      call (ascii "if") (count ++ [Lexeme.greater, .number 0, .comma] ++
        component agg (ascii "sum")
          (call (ascii "pow") (toFloat64 ++ [Lexeme.comma, .number 2])) ++ [Lexeme.minus] ++
        call (ascii "pow")
          (component agg (ascii "sum") toFloat64 ++ [Lexeme.comma, .number 2]) ++
        [Lexeme.slash] ++ count ++ [Lexeme.comma, .number 0]) ++ [Lexeme.rbracket]

/-- `merge` tells that the argument is a column of type AggregateFunction. -/
def deparseSimpleAggref (agg : Aggref) (merge : Bool) (fpinfo : CHFdwRelationInfo) :
    List Lexeme :=
  let (func, name) := appendFunctionName agg.aggfnoid fpinfo
  let sign_count_filter := func = some .CF_SIGN_COUNT && !agg.aggstar
  let aggfilter := agg.aggfilter || sign_count_filter
  -- no star for count(*) with FILTER
  let omit_star :=
    agg.aggstar && agg.aggfilter && !agg.aggdistinct && agg.aggfnoid.proname = ascii "count"
  let signMultiply := func = some .CF_SIGN_AVG || func = some .CF_SIGN_SUM
  let args : List Lexeme :=
    if agg.aggstar then
      if func = some .CF_SIGN_COUNT then [.sign] else if omit_star then [] else [.star]
    else if sign_count_filter then [.sign]
    else [.arg] ++ if signMultiply then [.star, .sign] else []
  let condition : List Lexeme :=
    if aggfilter then
      (if omit_star then [] else [.comma]) ++
      (if agg.aggfilter then
        [.lparen, .lparen, .aggfilter, .rparen, .greater, .number 0, .rparen] else []) ++
      if sign_count_filter then
        (if agg.aggfilter then [.AND] else []) ++ [.lparen, .arg, .rparen, .IS_NOT_NULL]
      else []
    else []
  let denominator : List Lexeme :=
    if func = some .CF_SIGN_AVG then
      [.slash, .word (ascii "sumIf"), .lparen, .sign, .comma] ++
        (if agg.aggfilter then [.aggfilter, .AND] else []) ++ [.arg, .IS_NOT_NULL, .rparen]
    else []
  [.word (name ++ (if merge then ascii "Merge" else []) ++
      if aggfilter then ascii "If" else []), .lparen] ++
    (if agg.aggdistinct then [.DISTINCT] else []) ++ args ++ condition ++ [.rparen] ++ denominator

def deparseAggref (agg : Aggref) (merge : Bool) (fpinfo : CHFdwRelationInfo) : List Lexeme :=
  let kind := agg_partial_kind agg
  if agg.aggsplit = .AGGSPLIT_INITIAL_SERIAL ∧
      (kind = .AGG_PARTIAL_AVG_INT ∨ kind = .AGG_PARTIAL_STAT_FLOAT) then
    deparsePartialStatArray agg kind
  else deparseSimpleAggref agg merge fpinfo

/-! ## Reading -/

inductive Operator
  | times
  | divide
  | minus
  | greater
  | and
  deriving Repr, DecidableEq

/-- An expression of ClickHouse. -/
inductive Remote
  | arg
  | aggfilter
  | sign
  | star
  | number (n : Nat)
  | binary (op : Operator) (left right : Remote)
  | isNotNull (e : Remote)
  | call (name : Bytes) (distinct : Bool) (args : List Remote)
  | array (elems : List Remote)

/-- The operators that may follow at a level of precedence: AND, then comparisons, then
differences, then products. -/
def Lexeme.operator : Nat → Lexeme → Option Operator
  | 0, .AND => some .and
  | 1, .greater => some .greater
  | 2, .minus => some .minus
  | 3, .star => some .times
  | 3, .slash => some .divide
  | _, _ => none

mutual

/-- An expression of a level of precedence; level 4 is a single operand. -/
def readExpr : Nat → Nat → List Lexeme → Option (Remote × List Lexeme)
  | 0, _, _ => none
  | fuel + 1, 4, tokens =>
      match tokens with
      | .arg :: rest => some (.arg, rest)
      | .aggfilter :: rest => some (.aggfilter, rest)
      | .sign :: rest => some (.sign, rest)
      | .number n :: rest => some (.number n, rest)
      | .lparen :: rest =>
          match readExpr fuel 0 rest with
          | some (e, .rparen :: rest) => some (e, rest)
          | _ => none
      | .lbracket :: rest =>
          match readArgs fuel rest with
          | some (elems, .rbracket :: rest) => some (.array elems, rest)
          | _ => none
      | .word name :: .lparen :: .star :: .rparen :: rest => some (.call name false [.star], rest)
      | .word name :: .lparen :: .DISTINCT :: rest =>
          match readArgs fuel rest with
          | some (args, .rparen :: rest) => some (.call name true args, rest)
          | _ => none
      | .word name :: .lparen :: rest =>
          match readArgs fuel rest with
          | some (args, .rparen :: rest) => some (.call name false args, rest)
          | _ => none
      | _ => none
  | fuel + 1, level, tokens =>
      match readExpr fuel (level + 1) tokens with
      | some (e, rest) => readRest fuel level e rest
      | none => none

/-- What follows an operand of a level, to the left. -/
def readRest : Nat → Nat → Remote → List Lexeme → Option (Remote × List Lexeme)
  | 0, _, _, _ => none
  | fuel + 1, level, left, tokens =>
      match tokens with
      | .IS_NOT_NULL :: rest =>
          if level = 1 then readRest fuel level (.isNotNull left) rest else some (left, tokens)
      | token :: rest =>
          match token.operator level with
          | some op =>
            match readExpr fuel (level + 1) rest with
            | some (right, rest) => readRest fuel level (.binary op left right) rest
            | none => none
          | none => some (left, tokens)
      | [] => some (left, [])

def readArgs : Nat → List Lexeme → Option (List Remote × List Lexeme)
  | 0, _ => none
  | fuel + 1, tokens =>
      match readExpr fuel 0 tokens with
      | some (e, .comma :: rest) =>
          match readArgs fuel rest with
          | some (es, rest) => some (e :: es, rest)
          | none => none
      | some (e, rest) => some ([e], rest)
      | none => none

end

/-- The whole text is one expression. -/
def read (tokens : List Lexeme) : Option Remote :=
  match readExpr (8 * tokens.length) 0 tokens with
  | some (e, []) => some e
  | _ => none

/-! ## Evaluation -/

/-- A value ClickHouse returns.  `nan` is a division by zero. -/
inductive Value
  | null
  | num (q : ℚ)
  | nan
  deriving DecidableEq

inductive Result
  | scalar (value : Value)
  | array (elems : List Value)
  deriving DecidableEq

/-- A scalar expression over the rows of a scan: whether its type is Nullable, and its
values. -/
structure Column (Row : Type) where
  nullable : Bool
  value : Row → Option ℚ
  sound : nullable = false → ∀ row, value row ≠ none

/-- A function whose transition value is its result: an operation on values, and what
ClickHouse returns where no value is counted and the argument is not Nullable. -/
structure Direct where
  op : ℚ → ℚ → ℚ
  comm : ∀ a b, op a b = op b a
  assoc : ∀ a b c, op (op a b) c = op a (op b c)
  default : ℚ
  default_op : op default default = default

instance (direct : Direct) : Std.Commutative direct.op := ⟨direct.comm⟩

instance (direct : Direct) : Std.Associative direct.op := ⟨direct.assoc⟩

/-- The values of some rows under `op`. -/
def Direct.fold (direct : Direct) (values : Multiset ℚ) : Option ℚ :=
  (values.map some).fold (Option.merge direct.op) none

section

variable {Row : Type}

/-- What the operands of an emitted aggregate stand for; a condition is 0 or 1, and the sign
column is not Nullable. -/
structure Operands (Row : Type) where
  arg : Column Row
  aggfilter : Column Row
  boolean : ∀ row q, aggfilter.value row = some q → q = 0 ∨ q = 1
  sign : Row → ℚ
  direct : Bytes → Option Direct

def truth (b : Bool) : ℚ :=
  if b then 1 else 0

/-- A function of two columns, NULL where one of them is. -/
def Column.map₂ (f : ℚ → ℚ → ℚ) (a b : Column Row) : Column Row where
  nullable := a.nullable || b.nullable
  value row := (a.value row).bind fun x => (b.value row).map fun y => f x y
  sound := by
    intro strict row
    rw [Bool.or_eq_false_iff] at strict
    obtain ⟨x, hx⟩ := Option.ne_none_iff_exists'.mp (a.sound strict.1 row)
    obtain ⟨y, hy⟩ := Option.ne_none_iff_exists'.mp (b.sound strict.2 row)
    simp [hx, hy]

def Column.constant (q : ℚ) : Column Row :=
  ⟨false, fun _ => some q, fun _ _ => Option.some_ne_none q⟩

/-- Kleene conjunction. -/
def and3 : Option ℚ → Option ℚ → Option ℚ
  | some a, some b => some (truth (a ≠ 0 && b ≠ 0))
  | some a, none => if a = 0 then some 0 else none
  | none, some b => if b = 0 then some 0 else none
  | none, none => none

def Column.and (a b : Column Row) : Column Row where
  nullable := a.nullable || b.nullable
  value row := and3 (a.value row) (b.value row)
  sound := by
    intro strict row
    rw [Bool.or_eq_false_iff] at strict
    obtain ⟨x, hx⟩ := Option.ne_none_iff_exists'.mp (a.sound strict.1 row)
    obtain ⟨y, hy⟩ := Option.ne_none_iff_exists'.mp (b.sound strict.2 row)
    simp [hx, hy, and3]

def Column.isNotNull (a : Column Row) : Column Row :=
  ⟨false, fun row => some (truth (a.value row).isSome), fun _ _ => Option.some_ne_none _⟩

/-- A scalar expression, row by row. -/
def Remote.column (operands : Operands Row) : Remote → Option (Column Row)
  | .arg => some operands.arg
  | .aggfilter => some operands.aggfilter
  | .sign => some ⟨false, fun row => some (operands.sign row), fun _ _ => Option.some_ne_none _⟩
  | .star => none
  | .number n => some (.constant n)
  | .binary .times a b => return .map₂ (· * ·) (← a.column operands) (← b.column operands)
  | .binary .greater a b =>
      return .map₂ (fun x y => truth (y < x)) (← a.column operands) (← b.column operands)
  | .binary .and a b => return .and (← a.column operands) (← b.column operands)
  | .binary .minus _ _ => none
  | .binary .divide _ _ => none
  | .isNotNull a => return .isNotNull (← a.column operands)
  | .call name false [a] =>
      if name = ascii "toFloat64" then a.column operands else none
  | .call name false [a, .number n] => do
      if name = ascii "pow" then
        let column ← a.column operands
        some ⟨column.nullable, fun row => (column.value row).map (· ^ n), fun strict row => by
          simpa using column.sound strict row⟩
      else none
  | .call _ _ _ => none
  | .array _ => none

/-- The values of a column that are counted, with DISTINCT each once. -/
def Column.values (column : Column Row) (distinct : Bool) (rows : Multiset Row) : Multiset ℚ :=
  let values := rows.filterMap column.value
  if distinct then values.dedup else values

/-- A condition holds where it is neither NULL nor 0. -/
def Column.holds (column : Column Row) (row : Row) : Bool :=
  (column.value row).any (· ≠ 0)

def Column.passes (column : Column Row) (rows : Multiset Row) : Multiset Row :=
  rows.filter fun row => column.holds row

/-- The value of an aggregate function without the suffix `If`. -/
def aggregate (direct : Bytes → Option Direct) (name : Bytes) (column : Column Row)
    (distinct : Bool) (rows : Multiset Row) : Option Value :=
  let values := column.values distinct rows
  let noValue (q : Value) : Value := if column.nullable then .null else q
  if name = ascii "count" then some (.num values.card)
  else if name = ascii "sum" then
    some (if values = 0 then noValue (.num 0) else .num values.sum)
  else if name = ascii "avg" then
    some (if values = 0 then noValue .nan else .num (values.sum / values.card))
  else
    (direct name).map fun direct =>
      match direct.fold values with
      | some q => .num q
      | none => noValue (.num direct.default)

/-- The name of an aggregate function, and whether it has the suffix `If`. -/
def splitIf (name : Bytes) : Bytes × Bool :=
  if name.drop (name.length - 2) = ascii "If" then (name.take (name.length - 2), true)
  else (name, false)

/-- A call of an aggregate function over the rows of a group. -/
def aggregateCall (operands : Operands Row) (name : Bytes) (distinct : Bool)
    (args : List Remote) (rows : Multiset Row) : Option Value :=
  match splitIf name, args with
  | (name, false), [.star] =>
      if name = ascii "count" then some (.num rows.card) else none
  | (name, false), [a] => do
      aggregate operands.direct name (← a.column operands) distinct rows
  | (name, true), [c] => do
      let condition ← c.column operands
      if name = ascii "count" then some (.num (condition.passes rows).card) else none
  | (name, true), [a, c] => do
      aggregate operands.direct name (← a.column operands) distinct
        ((← c.column operands).passes rows)
  | _, _ => none

/-- A function of two numbers, NULL where one of them is. -/
def Value.map₂ (f : ℚ → ℚ → Value) : Value → Value → Value
  | .null, _ => .null
  | _, .null => .null
  | .num a, .num b => f a b
  | .nan, _ => .nan
  | _, .nan => .nan

/-- An expression over a group. -/
def Remote.value (operands : Operands Row) (rows : Multiset Row) : Remote → Option Value
  | .number n => some (.num n)
  | .binary .divide a b =>
      return .map₂ (fun x y => if y = 0 then .nan else .num (x / y)) (← a.value operands rows)
        (← b.value operands rows)
  | .binary .minus a b =>
      return .map₂ (fun x y => .num (x - y)) (← a.value operands rows) (← b.value operands rows)
  | .binary .greater a b =>
      return .map₂ (fun x y => .num (truth (y < x))) (← a.value operands rows)
        (← b.value operands rows)
  | .call name distinct args =>
      match args with
      | [c, a, b] =>
          if name = ascii "if" then do
            if (← c.value operands rows) = .num 1 then a.value operands rows
            else b.value operands rows
          else none
      | [a, .number n] =>
          if name = ascii "pow" then do
            match ← a.value operands rows with
            | .num q => some (.num (q ^ n))
            | .null => some .null
            | .nan => some .nan
          else aggregateCall operands name distinct args rows
      | [a] =>
          if name = ascii "toInt64" ∨ name = ascii "toFloat64" then a.value operands rows
          else aggregateCall operands name distinct args rows
      | args => aggregateCall operands name distinct args rows
  | _ => none

/-- What ClickHouse returns for an emitted aggregate over a group. -/
def remoteResult (operands : Operands Row) (rows : Multiset Row) (tokens : List Lexeme) :
    Option Result := do
  match ← read tokens with
  | .array elems => return .array (← elems.mapM fun e => e.value operands rows)
  | e => return .scalar (← e.value operands rows)

end

end PgClickhouse.Aggregate
