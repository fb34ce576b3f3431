import PgClickhouse.AggregateText
import PgClickhouse.ScalarArrayOp

/-!
# What the context decides

The same expression tree is deparsed in several places, and the emitters look at the context:
at the scan, for the sign rewriting, the suffix `Merge` and the proofs that a column is not
NULL; and at flags that enclosing nodes and clauses have set.  Here an expression shows the
nodes whose text depends on the context.  The text of every other node is a template, with
the flags its emitter passes to each argument.

`within` lists the parts of an expression outside aggregates, each with the flags it is
printed with, or as not printed.
-/

namespace PgClickhouse.Context

open Deparse Aggregate

/-! ## Text -/

inductive Token
  | lexeme (l : Lexeme)
  | CASE
  | WHEN
  | column (varno : Nat) (name : Bytes)
  | param (id : Nat)
  | literal (text : Bytes)
  /-- The emitter raises an error. -/
  | ereport
  deriving Repr, DecidableEq

namespace Token

def word (name : String) : Token := .lexeme (.word (ascii name))
def lparen : Token := .lexeme .lparen
def rparen : Token := .lexeme .rparen
def comma : Token := .lexeme .comma

/-- The tokens a text can begin with before its first operand. -/
def Opening (t : Token) : Prop := t = lparen ∨ t = CASE ∨ t = WHEN

instance (t : Token) : Decidable t.Opening := inferInstanceAs (Decidable (_ ∨ _))

end Token

/-- What ends a template. -/
inductive Closing
  | rparen
  | rbracket
  | word (name : Bytes)
  deriving Repr, DecidableEq

def Closing.token : Closing → Token
  | .rparen => .lexeme .rparen
  | .rbracket => .lexeme .rbracket
  | .word name => .lexeme (.word name)

/-! ## The context -/

/-- The flags of `deparse_expr_cxt`; `showtype` is the argument of `deparseConst`, and
`nullable` the mark that `deparseCoalesceExpr` leaves on its arguments. -/
structure Flags where
  truth_ctx : Bool
  interval_op : Bool
  array_as_tuple : Bool
  showtype : Bool
  nullable : Bool
  deriving Repr, DecidableEq

def Flags.zero : Flags := ⟨false, false, false, false, false⟩

/-- The scan of the outer statement. -/
structure ScanRel where
  relids : List Nat
  fpinfo : CHFdwRelationInfo
  deriving Repr, DecidableEq

/-- What `root` tells about columns: its range table, their remote names and the option
`aggregatefunction`. -/
structure PlannerInfo where
  pg : Postgres
  rtable : List RangeTblEntry
  column_name : Deparse.Var → Bytes
  aggregatefunction : Deparse.Var → Bool

/-- How the flags are set for an argument.  In a truth context only some nodes leave their
arguments in it. -/
inductive Pass
  | exact
  | keep
  | truth
  | interval
  | typed
  | nullable
  deriving Repr, DecidableEq

def Pass.flags (flags : Flags) : Pass → Flags
  | .exact => { Flags.zero with interval_op := flags.interval_op }
  | .keep => { Flags.zero with truth_ctx := flags.truth_ctx, interval_op := flags.interval_op }
  | .truth => { Flags.zero with truth_ctx := true, interval_op := flags.interval_op }
  | .interval => { Flags.zero with interval_op := true }
  | .typed => { Flags.zero with interval_op := flags.interval_op, showtype := true }
  | .nullable => { Flags.zero with interval_op := flags.interval_op, nullable := true }

/-- The flags for the array of a comparison. -/
def Flags.array (flags : Flags) (array_as_tuple : Bool) : Flags :=
  { Pass.exact.flags flags with array_as_tuple }

/-! ## Expressions -/

structure Interval where
  month : Int
  day : Int
  time : Int
  deriving Repr, DecidableEq

inductive ArrayValue
  | empty
  | elements (hasnull : Bool)
  deriving Repr, DecidableEq

/-- A constant.  `literal` and `tuple` are its texts, `typename` the name of its type and
`cast` the type it is always cast to.  `text` is the value of a constant of type `text`. -/
structure Const where
  constisnull : Bool
  literal : Bytes
  tuple : Bytes
  typename : Bytes
  cast : Option Bytes
  text : Option Bytes
  span : Option Interval
  array : Option ArrayValue
  deriving Repr, DecidableEq

/-- What is asked about a node whose text is a template; `Aggref` stands for the aggregates
that are emitted in other forms than those of `AggFn`. -/
inductive NodeTag
  | OpExpr (opfuncid : OpFunc)
  | ArrayExpr (multidims : Bool)
  | Aggref
  | other
  deriving Repr, DecidableEq

mutual

/-- `concat` is the operator `||`, `neg_ip` the operator `<#>`, and `timezone` the function
of that name on a text and a timestamp with time zone.  A conversion to an interval has no type
name. -/
inductive Expr
  | Var (node : Deparse.Var)
  | Const (node : Const)
  | Param (id : Nat)
  | RelabelType (arg : Expr)
  | CoerceViaIOExpr (typename : Option Bytes) (arg : Expr)
  | concat (left right : Expr)
  | neg_ip (left right : Expr)
  | timezone (zone source : Expr)
  | ScalarArrayOpExpr (op : Comparison) (useOr : Bool) (arg1 arg2 : Expr)
  | Aggref (node : Aggref) (args aggfilter : Args)
  | node (tag : NodeTag) (parts : Parts)

inductive Args
  | nil
  | cons (arg : Expr) (rest : Args)

/-- The template of a node with its arguments.  An argument that is `unseen` is not printed. -/
inductive Parts
  | last (closing : Closing)
  | lexeme (token : Token) (rest : Parts)
  | child (pass : Pass) (arg : Expr) (rest : Parts)
  | unseen (arg : Expr) (rest : Parts)

end

/-! ## Decisions -/

section

variable (root : PlannerInfo) (scanrel : ScanRel)

def glob_cxt : foreign_glob_cxt := ⟨root.rtable, scanrel.relids⟩

mutual

def expr_never_null : Expr → Bool
  | .RelabelType arg => expr_never_null arg
  | .Const node => !node.constisnull
  | .Var node => var_never_null root.pg node (glob_cxt root scanrel)
  | .node (.OpExpr opfuncid) parts => is_non_nullable_op opfuncid && parts_never_null parts
  | _ => false

/-- All arguments of a node. -/
def parts_never_null : Parts → Bool
  | .last _ => true
  | .lexeme _ rest => parts_never_null rest
  | .child _ arg rest => expr_never_null arg && parts_never_null rest
  | .unseen arg rest => expr_never_null arg && parts_never_null rest

end

def Parts.isEmpty : Parts → Bool
  | .last _ => true
  | .lexeme _ rest => rest.isEmpty
  | .child .. => false
  | .unseen .. => false

def saop_array_nulls : Expr → SaopArrayNulls
  | .Const node =>
      match node.array with
      | none => .UNKNOWN
      | some .empty => .EMPTY
      | some (.elements hasnull) => if hasnull then .UNKNOWN else .NULL_FREE
  | .node (.ArrayExpr false) parts =>
      if parts.isEmpty then .EMPTY
      else if parts_never_null root scanrel parts then .NULL_FREE else .UNKNOWN
  | _ => .UNKNOWN

/-- A constant with elements. -/
def is_ok_in_expr : Expr → Bool
  | .Const node => node.array.any (· != .empty)
  | _ => false

inductive SaopForm
  | native
  | cheap
  | guarded
  deriving Repr, DecidableEq

/-- The branches of `deparseScalarArrayOpExpr`. -/
def saopForm (truth_ctx : Bool) (op : Comparison) (useOr : Bool) (arg1 arg2 : Expr) : SaopForm :=
  let nulls := saop_array_nulls root scanrel arg2
  if (nulls == .NULL_FREE || (truth_ctx && useOr && op == .eq)) && is_ok_in_expr arg2 &&
      ((useOr && op == .eq) || (!useOr && op == .ne)) then .native
  else if nulls == .EMPTY || (nulls == .NULL_FREE && expr_never_null root scanrel arg1) then
    .cheap
  else .guarded

mutual

/-- `pull_var_clause`. -/
def Expr.vars : Expr → List Deparse.Var
  | .Var node => [node]
  | .Const _ => []
  | .Param _ => []
  | .RelabelType arg => arg.vars
  | .CoerceViaIOExpr _ arg => arg.vars
  | .concat left right => left.vars ++ right.vars
  | .neg_ip left right => left.vars ++ right.vars
  | .timezone zone source => zone.vars ++ source.vars
  | .ScalarArrayOpExpr _ _ arg1 arg2 => arg1.vars ++ arg2.vars
  | .Aggref _ args aggfilter => args.vars ++ aggfilter.vars
  | .node _ parts => parts.vars

def Args.vars : Args → List Deparse.Var
  | .nil => []
  | .cons arg rest => arg.vars ++ rest.vars

def Parts.vars : Parts → List Deparse.Var
  | .last _ => []
  | .lexeme _ rest => rest.vars
  | .child _ arg rest => arg.vars ++ rest.vars
  | .unseen arg rest => arg.vars ++ rest.vars

end

/-- The columns are looked up in `root`, but only those of the scan. -/
def aggref_on_aggregate_function (args : Args) : Bool :=
  args.vars.any fun var => scanrel.relids.contains var.varno && var.varlevelsup == 0 &&
    root.aggregatefunction var

/-- `(expr || ' days')::interval` becomes `expr day`. -/
def interval_unit : Expr → Option Token
  | .Const node => node.text.map fun s =>
      if ascii "day" <:+: s then .word "day"
      else if ascii "year" <:+: s then .word "year"
      else if ascii "month" <:+: s then .word "month"
      else .ereport
  | _ => none

/-- The unit that stands for the operator and its right operand, if `||` builds an interval. -/
def spanUnit (flags : Flags) (right : Expr) : Option Token :=
  if flags.interval_op then interval_unit right else none

end

/-! ## Emitters -/

def deparseConst (node : Const) (array_as_tuple showtype : Bool) : List Token :=
  if node.constisnull then [.word "NULL"]
  else
    let literal := .literal (if array_as_tuple then node.tuple else node.literal)
    match if showtype then some node.typename else node.cast with
    | none => [literal]
    | some typename =>
        [.word "cast", .lparen, literal, .word "as", .lexeme (.word typename), .rparen]

/-- A place in the text of a comparison. -/
inductive Slot
  | token (t : Token)
  | arg1
  | arg2
  deriving Repr, DecidableEq

def Slot.fill (arg1 arg2 : List Token) : Slot → List Token
  | .token t => [t]
  | .arg1 => arg1
  | .arg2 => arg2

def call (name : String) (args : List Slot) : List Slot :=
  [Slot.token (.word name), .token .lparen] ++ args ++ [Slot.token .rparen]

def saopTemplate (op : Comparison) (useOr : Bool) (form : SaopForm) : List Slot :=
  let word (name : String) : List Slot := [.token (.word name)]
  let countEqual := call "countEqual" [.arg2, .token .comma, .arg1]
  let countNull := call "countEqual" ([.arg2, .token .comma] ++ word "NULL")
  let length := call "length" [.arg2]
  match form with
  | .native =>
      [.token .lparen, .arg1] ++ word (if op = .eq then "IN" else "NOT IN") ++
        [.arg2, .token .rparen]
  | .cheap =>
      .token .lparen ::
        (match useOr, op with
          | true, .eq => call "has" [.arg2, .token .comma, .arg1]
          | true, .ne => countEqual ++ word "<" ++ length
          | false, .eq => countEqual ++ word "=" ++ length
          | false, .ne => countEqual ++ word "=" ++ word "0") ++
        [.token .rparen]
  | .guarded =>
      let exhaustive_op := if useOr then Comparison.ne else .eq
      let match_result := if useOr then "true" else "false"
      let no_match_result := if useOr then "false" else "true"
      [.token .lparen, .token .CASE, .token .WHEN, .arg1] ++ word "IS NULL" ++ word "AND" ++
        call "notEmpty" [.arg2] ++ word "THEN" ++ word "NULL" ++ [.token .WHEN] ++
        (if op ≠ exhaustive_op then countEqual
        else
          [.token .lparen] ++ length ++ word "-" ++ countEqual ++ word "-" ++ countNull ++
            [.token .rparen]) ++
        word ">" ++ word "0" ++ word "THEN" ++ word match_result ++ [.token .WHEN] ++
        countNull ++ word ">" ++ word "0" ++ word "THEN" ++ word "NULL" ++
        word "ELSE" ++ word no_match_result ++ word "END" ++ [.token .rparen]

/-- The text of an aggregate, with those of its arguments and its condition. -/
def fillAggref (fpinfo : CHFdwRelationInfo) (args aggfilter : List Token) :
    Lexeme → List Token
  | .arg => args
  | .aggfilter => aggfilter
  | .sign => [.lexeme (.word fpinfo.ch_table_sign_field)]
  | l => [.lexeme l]

section

variable (root : PlannerInfo) (scanrel : ScanRel)

mutual

def deparseExpr (flags : Flags) : Expr → List Token
  | .Var node => [.column node.varno (root.column_name node)]
  | .Const node => deparseConst node flags.array_as_tuple flags.showtype
  | .Param id => [.param id]
  | .RelabelType arg => deparseExpr (Pass.keep.flags flags) arg
  | .CoerceViaIOExpr none arg => deparseExpr (Pass.exact.flags flags) arg
  | .CoerceViaIOExpr (some typename) arg =>
      [.word "CAST", .lparen] ++ deparseExpr (Pass.exact.flags flags) arg ++ [.word "AS"] ++
        (if flags.nullable then
          [.word "Nullable", .lparen, .lexeme (.word typename), .rparen, .rparen]
        else [.lexeme (.word typename), .rparen])
  | .concat left right =>
      [.lparen] ++ deparseExpr (Pass.exact.flags flags) left ++
        match spanUnit flags right with
        | some unit => [.rparen, unit]
        | none => [.word "||"] ++ deparseExpr (Pass.exact.flags flags) right ++ [.rparen]
  | .neg_ip left right =>
      [.lparen, .word "-", .word "dotProduct", .lparen] ++
        deparseExpr (Pass.exact.flags flags) left ++ [.comma] ++
        deparseExpr (Pass.exact.flags flags) right ++ [.rparen, .rparen]
  | .timezone zone source =>
      [.word "toDateTime64", .lparen, .word "toString", .lparen] ++
        deparseExpr (Pass.exact.flags flags) source ++ [.comma] ++
        deparseExpr (Pass.exact.flags flags) zone ++
        [.rparen, .comma, .word "6", .comma, .word "TimeZone", .rparen]
  | .ScalarArrayOpExpr op useOr arg1 arg2 =>
      let form := saopForm root scanrel flags.truth_ctx op useOr arg1 arg2
      (saopTemplate op useOr form).flatMap
        (Slot.fill (deparseExpr (Pass.exact.flags flags) arg1)
          (deparseExpr (flags.array (form == .native)) arg2))
  | .Aggref node args aggfilter =>
      (deparseAggref node (aggref_on_aggregate_function root scanrel args)
        scanrel.fpinfo).flatMap
          (fillAggref scanrel.fpinfo (deparseArgs (Pass.exact.flags flags) args)
            (deparseArgs (Pass.truth.flags flags) aggfilter))
  | .node _ parts => deparseParts flags parts

/-- Arguments with commas between them. -/
def deparseArgs (flags : Flags) : Args → List Token
  | .nil => []
  | .cons arg .nil => deparseExpr flags arg
  | .cons arg (.cons next rest) =>
      deparseExpr flags arg ++ .comma :: deparseArgs flags (.cons next rest)

def deparseParts (flags : Flags) : Parts → List Token
  | .last closing => [closing.token]
  | .lexeme token rest => token :: deparseParts flags rest
  | .child pass arg rest => deparseExpr (pass.flags flags) arg ++ deparseParts flags rest
  | .unseen _ rest => deparseParts flags rest

end

/-! ## Occurrences -/

mutual

/-- The parts of an expression outside aggregates, with the flags they are printed with. -/
def Expr.within (flags : Flags) : Expr → List (Expr × Option Flags)
  | .Var _ => []
  | .Const _ => []
  | .Param _ => []
  | .RelabelType arg => (arg, some (Pass.keep.flags flags)) :: arg.within (Pass.keep.flags flags)
  | .CoerceViaIOExpr _ arg =>
      (arg, some (Pass.exact.flags flags)) :: arg.within (Pass.exact.flags flags)
  | .concat left right =>
      (left, some (Pass.exact.flags flags)) :: left.within (Pass.exact.flags flags) ++
        if (spanUnit flags right).isSome then [(right, none)]
        else (right, some (Pass.exact.flags flags)) :: right.within (Pass.exact.flags flags)
  | .neg_ip left right =>
      (left, some (Pass.exact.flags flags)) :: left.within (Pass.exact.flags flags) ++
        (right, some (Pass.exact.flags flags)) :: right.within (Pass.exact.flags flags)
  | .timezone zone source =>
      (zone, some (Pass.exact.flags flags)) :: zone.within (Pass.exact.flags flags) ++
        (source, some (Pass.exact.flags flags)) :: source.within (Pass.exact.flags flags)
  | .ScalarArrayOpExpr op useOr arg1 arg2 =>
      let array_as_tuple := saopForm root scanrel flags.truth_ctx op useOr arg1 arg2 == .native
      (arg1, some (Pass.exact.flags flags)) :: arg1.within (Pass.exact.flags flags) ++
        (arg2, some (flags.array array_as_tuple)) :: arg2.within (flags.array array_as_tuple)
  | .Aggref .. => []
  | .node tag parts => if tag = .Aggref then [] else parts.within flags

def Parts.within (flags : Flags) : Parts → List (Expr × Option Flags)
  | .last _ => []
  | .lexeme _ rest => rest.within flags
  | .child pass arg rest =>
      (arg, some (pass.flags flags)) :: arg.within (pass.flags flags) ++ rest.within flags
  | .unseen arg rest => (arg, none) :: rest.within flags

end

end

/-! ## Templates -/

/-- Arguments with a separator. -/
def separated (pass : Pass) (separator : Token) (rest : Parts) : List Expr → Parts
  | [] => rest
  | [arg] => .child pass arg rest
  | arg :: next :: args =>
      .child pass arg (.lexeme separator (separated pass separator rest (next :: args)))

inductive BoolExprType
  | AND_EXPR
  | OR_EXPR
  | NOT_EXPR
  deriving Repr, DecidableEq

/-- `NOT` of a subquery comparison aside. -/
def deparseBoolExpr (boolop : BoolExprType) (args : List Expr) : Expr :=
  match boolop with
  | .AND_EXPR => .node .other
      (.lexeme .lparen (separated .keep (.word "AND") (.last .rparen) args))
  | .OR_EXPR => .node .other
      (.lexeme .lparen (separated .keep (.word "OR") (.last .rparen) args))
  | .NOT_EXPR => .node .other
      (.lexeme .lparen (.lexeme (.word "NOT")
        (separated .exact .comma (.last .rparen) (args.take 1))))

/-- A result of `CASE`, converted to the integer type `conv`. -/
def wrapped (conv : Option Bytes) (result : Expr) (rest : Parts) : Parts :=
  match conv, result with
  | none, _ => .child .keep result rest
  | some conv, .Const node =>
      if node.constisnull then .child .keep (.Const node) rest
      else
        .lexeme (.lexeme (.word conv)) (.lexeme .lparen
          (.child .keep (.Const node) (.lexeme .rparen rest)))
  | some conv, result =>
      .lexeme (.lexeme (.word conv)) (.lexeme .lparen
        (.child .keep result (.lexeme .rparen rest)))

/-- A condition is compared to 1 if it is a column. -/
def caseWhen (condition : Expr) (rest : Parts) : Parts :=
  match condition with
  | .Var node => .child .truth (.Var node) (.lexeme (.word "=") (.lexeme (.word "1") rest))
  | condition => .child .truth condition rest

def deparseCaseExpr (conv : Option Bytes) (arg : Option Expr) (whens : List (Expr × Expr))
    (defresult : Option Expr) : Expr :=
  let last : Parts := .last (.word (ascii "END"))
  let default : Parts :=
    match defresult with
    | some result => .lexeme (.word "ELSE") (wrapped conv result last)
    | none => last
  let branches := whens.foldr (fun (condition, result) rest =>
    .lexeme .WHEN (caseWhen condition (.lexeme (.word "THEN") (wrapped conv result rest)))) default
  .node .other (.lexeme .CASE
    (match arg with
    | some arg => .child .exact arg branches
    | none => branches))

end PgClickhouse.Context
