import PgClickhouse.StatementText

/-!
# What a statement prints

Which columns, parameters and FROM entries a statement prints, listed from its input and
without buffers: each with the context it is printed in and the subplans in whose bodies it
stands.  An operand that is captured and appended three times is listed once.
-/

namespace PgClickhouse.Emit

/-! ## Expressions -/

/-- What names a column, a parameter or a FROM entry.  `fetched` is a column in the select
list of a base relation. -/
inductive Leaf
  | Var (node : Var)
  | Param (node : Param)
  | fetched (relid : Nat) (attno : Int)
  | sign
  | entry (entry : FromEntry)
  deriving Repr, DecidableEq

/-- A leaf, printed in the context of `subplan` or in the outer context, and the subplans in
whose bodies it stands, the outermost first. -/
structure Occurrence where
  leaf : Leaf
  subplan : Option SubPlanInfo
  bodies : List SubPlanInfo
  deriving Repr, DecidableEq

def Occurrence.within (info : SubPlanInfo) (o : Occurrence) : Occurrence :=
  { o with bodies := info :: o.bodies }

/-- The context an expression is printed in, and what its correlation arguments print. -/
structure Around where
  subplan : Option SubPlanInfo
  correlation_arg : Nat → Option (List Occurrence)

def Around.outer : Around := ⟨none, fun _ => none⟩

/-- What an emitter prints in each context. -/
abbrev Printed := Around → List Occurrence

def printedBy (exprs : List Printed) : Printed := fun around =>
  exprs.flatMap fun printed => printed around

def operandPrinted (operands : List Printed) (i : Nat) : Printed := fun around =>
  (operands[i]?.map fun printed => printed around).getD []

def Piece.printed (operands : List Printed) : Piece → Printed
  | .text _, _ => []
  | .operand i, around => operandPrinted operands i around
  | .captured _, _ => []
  | .sign, around => [⟨.sign, around.subplan, []⟩]

def Template.printed (operands : List Printed) (template : Template) : Printed := fun around =>
  (template.captures.flatMap fun i => operandPrinted operands i around) ++
    template.pieces.flatMap fun piece => piece.printed operands around

def paramPrinted (node : Param) : Printed := fun around =>
  match (if around.subplan.isSome ∧ node.paramkind = .PARAM_EXEC then
      around.correlation_arg node.paramid else none) with
  | some printed => printed
  | none => [⟨.Param node, around.subplan, []⟩]

/-- What the parts of a subplan print. -/
structure PartsPrinted where
  args : List Printed
  probe : List Printed
  targetList : List Printed
  quals : List Printed
  groupClause : List Printed
  havingQual : List Printed

/-- The context of the body of a subplan. -/
def Around.sub (info : SubPlanInfo) (args : List Printed) (around : Around) : Around where
  subplan := some info
  correlation_arg paramid :=
    (info.parParam.zip args).find? (fun pair => pair.1 == paramid) |>.map fun pair =>
      pair.2 around

def bodyPrinted (info : SubPlanInfo) (parts : PartsPrinted) : Printed := fun around =>
  let inner := around.sub info parts.args
  let entries : List Occurrence :=
    (subPlanEntries info).map fun entry => ⟨.entry entry, some info, []⟩
  ((if info.subLinkType = .EXISTS then [] else printedBy parts.targetList inner) ++ entries ++
    printedBy parts.quals inner ++ printedBy parts.groupClause inner ++
    printedBy parts.havingQual inner).map (Occurrence.within info)

def subPlanPrinted (info : SubPlanInfo) (parts : PartsPrinted) : Printed := fun around =>
  (if info.subLinkType = .ANY then printedBy parts.probe around else []) ++
    bodyPrinted info parts around

mutual

def Expr.printed : Expr → Printed
  | .Var node => fun around => [⟨.Var node, around.subplan, []⟩]
  | .Param node => paramPrinted node
  | .node args unseen template => template.printed (printedList args ++ printedList unseen)
  | .NOT arg => arg.printed
  | .SubPlan info args probe targetList quals groupClause havingQual =>
      subPlanPrinted info
        ⟨printedList args, printedList probe, printedList targetList, printedList quals,
          printedList groupClause, printedList havingQual⟩

def printedList : List Expr → List Printed
  | [] => []
  | e :: es => e.printed :: printedList es

end

/-- What clauses print in the outer context. -/
def clausesPrinted (exprs : List Expr) : List Occurrence :=
  printedBy (printedList exprs) .outer

/-! ## Statements -/

/-- What a part of a statement prints inside the SELECTs of `path`. -/
structure Printout where
  path : Path
  scanrel : RelOptInfo Expr
  has_inlined_subplan : Bool
  printed : List Occurrence

def entryPrintout (path : Path) (rel : RelOptInfo Expr) (entry : FromEntry) : Printout :=
  ⟨path, rel, false, [⟨.entry entry, none, []⟩]⟩

/-- The FROM list of a SELECT over `scanrel`. -/
def selectFrom (scanrel : RelOptInfo Expr) (has_inlined_subplan : Bool) : List FromEntry :=
  fromEntries scanrel (useAlias scanrel has_inlined_subplan)

def selectPrintouts (fromPrintouts : Bool → Path → List Printout) (scanrel : RelOptInfo Expr)
    (has_inlined_subplan : Bool) (printed : List Occurrence) (path : Path) : List Printout :=
  let path := path ++ [selectFrom scanrel has_inlined_subplan]
  ⟨path, scanrel, has_inlined_subplan, printed⟩ ::
    fromPrintouts (useAlias scanrel has_inlined_subplan) path

def rangeTblRefPrintouts (fromPrintouts : Bool → Path → List Printout) (rel : RelOptInfo Expr)
    (make_subquery : Bool) (path : Path) : List Printout :=
  if make_subquery then
    entryPrintout path rel (subqueryEntry rel) ::
      selectPrintouts fromPrintouts rel (containSubplansList rel.remote_conds)
        (clausesPrinted rel.reltarget ++ clausesPrinted rel.remote_conds) path
  else fromPrintouts true path

def fromPrintouts : RelOptInfo Expr → Bool → Path → List Printout
  | .base relid dbname relname reltarget remote_conds local_conds, use_alias, path =>
      [entryPrintout path (.base relid dbname relname reltarget remote_conds local_conds)
        (tableEntry relid use_alias)]
  | .join i t r l jointype joinclauses make_outerrel_subquery make_innerrel_subquery outerrel
      innerrel, _, path =>
      ⟨path, .join i t r l jointype joinclauses make_outerrel_subquery make_innerrel_subquery
          outerrel innerrel, false, clausesPrinted joinclauses⟩ ::
        (rangeTblRefPrintouts (fromPrintouts outerrel) outerrel make_outerrel_subquery path ++
          rangeTblRefPrintouts (fromPrintouts innerrel) innerrel make_innerrel_subquery path)

namespace SelectStmt

def selectListPrinted (stmt : SelectStmt) : List Occurrence :=
  if stmt.scanrel.IS_JOIN_REL || stmt.IS_UPPER_REL then clausesPrinted stmt.tlist
  else stmt.attrs_used.map fun attno =>
    ⟨.fetched stmt.scanrel.relation_index attno, none, []⟩

def tailPrinted (stmt : SelectStmt) : List Occurrence :=
  (if stmt.IS_UPPER_REL then clausesPrinted stmt.groupClause ++ clausesPrinted stmt.remote_conds
    else []) ++
  clausesPrinted stmt.pathkeys ++ clausesPrinted stmt.limitCount ++
  clausesPrinted stmt.limitOffset

/-- What the outer SELECT prints, its FROM clause apart. -/
def printed (stmt : SelectStmt) : List Occurrence :=
  stmt.selectListPrinted ++ clausesPrinted stmt.quals ++ stmt.tailPrinted

def printouts (stmt : SelectStmt) : List Printout :=
  selectPrintouts (fromPrintouts stmt.scanrel) stmt.scanrel stmt.has_inlined_subplan
    stmt.printed []

end SelectStmt

end PgClickhouse.Emit
