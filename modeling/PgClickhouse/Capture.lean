import PgClickhouse.Printing

/-!
# Captured operands

`deparseExprToString` swaps the buffer of one context.  In the body of a subplan a
correlation parameter is printed through the context around the body, which keeps its own
buffer: a captured operand that has one loses its text, and the text goes into the
statement at the place reached so far.

Main facts:

* `Tracks` : what holds of two runs whose buffers correspond, one law for each step
* `tracks_deparseExpr` : and so of two runs of an expression
* `captures_iff` : captured text is what would have been appended exactly if no correlation
  parameter is printed
-/

namespace PgClickhouse.Emit

variable {cat : Catalog}

/-! ## Correlation parameters -/

/-- Whether an emitter prints a correlation parameter of its context, from those that are
given. -/
abbrev Reading := (Nat → Bool) → Bool

def anyReads (readings : List Reading) : Reading := fun correlated =>
  readings.any fun reading => reading correlated

def operandReads (operands : List Reading) (i : Nat) : Reading := fun correlated =>
  (operands[i]?.map fun reading => reading correlated).getD false

def Piece.reads (operands : List Reading) : Piece → Reading
  | .operand i, correlated => operandReads operands i correlated
  | .text _, _ => false
  | .captured _, _ => false
  | .sign, _ => false

def Template.reads (operands : List Reading) (template : Template) : Reading := fun correlated =>
  (template.captures.any fun i => operandReads operands i correlated) ||
    template.pieces.any fun piece => piece.reads operands correlated

structure PartsRead where
  args : List Reading
  probe : List Reading
  targetList : List Reading
  quals : List Reading
  groupClause : List Reading
  havingQual : List Reading

/-- Printing a correlation argument of a subplan prints what the argument reads. -/
def argReads (info : SubPlanInfo) (args : List Reading) (correlated : Nat → Bool) :
    Nat → Bool := fun paramid =>
  (((info.parParam.zip args).find? fun pair => pair.1 == paramid).map fun pair =>
    pair.2 correlated).getD false

def bodyReads (info : SubPlanInfo) (parts : PartsRead) : Reading := fun correlated =>
  let inner := argReads info parts.args correlated
  (if info.subLinkType = .EXISTS then false else anyReads parts.targetList inner) ||
    anyReads parts.quals inner || anyReads parts.groupClause inner ||
    anyReads parts.havingQual inner

def subPlanReads (info : SubPlanInfo) (parts : PartsRead) : Reading := fun correlated =>
  (if info.subLinkType = .ANY then anyReads parts.probe correlated else false) ||
    bodyReads info parts correlated

mutual

/-- Whether printing an expression prints a correlation parameter. -/
def Expr.correlates : Expr → Reading
  | .Var _, _ => false
  | .Param node, correlated => decide (node.paramkind = .PARAM_EXEC) && correlated node.paramid
  | .node args unseen template, correlated =>
      template.reads (correlatesList args ++ correlatesList unseen) correlated
  | .NOT arg, correlated => arg.correlates correlated
  | .SubPlan info args probe targetList quals groupClause havingQual, correlated =>
      subPlanReads info
        ⟨correlatesList args, correlatesList probe, correlatesList targetList,
          correlatesList quals, correlatesList groupClause, correlatesList havingQual⟩ correlated

def correlatesList : List Expr → List Reading
  | [] => []
  | e :: es => e.correlates :: correlatesList es

end

/-- The correlation parameters of a context. -/
def deparse_expr_cxt.correlated (context : deparse_expr_cxt) (paramid : Nat) : Bool :=
  (context.correlation_arg paramid).isSome

/-! ## Two runs -/

theorem deparseExprs_eq_map (exprs : List Expr) :
    deparseExprs cat exprs = exprs.map (deparseExpr cat) := by
  induction exprs with
  | nil => rw [deparseExprs, List.map_nil]
  | cons e exprs ih => rw [deparseExprs, List.map_cons, ih]

theorem correlatesList_eq_map (exprs : List Expr) :
    correlatesList exprs = exprs.map Expr.correlates := by
  induction exprs with
  | nil => rw [correlatesList, List.map_nil]
  | cons e exprs ih => rw [correlatesList, List.map_cons, ih]

/-- What is kept of two runs that print alike into buffers that correspond.  The mark tells
that a correlation parameter was printed. -/
structure Tracks (cat : Catalog) (Buf : Nat → Nat → Prop)
    (R : Bool → Action → Action → Prop) : Prop where
  nothing : R false id id
  comp : ∀ {x y : Bool} {a a' b b' : Action}, R x a a' → R y b b' →
    R (x || y) (fun s => b (a s)) fun s => b' (a' s)
  tokens : ∀ {buf buf' : Nat}, Buf buf buf' → ∀ tokens : Path → List Token,
    R false (fun s => append buf (tokens s.path) s) fun s => append buf' (tokens s.path) s
  raise : ∀ v : Bool, R false (fun s => { s with error := s.error || v })
    fun s => { s with error := s.error || v }
  remote : ∀ {context context' : deparse_expr_cxt}, Buf context.buf context'.buf →
    ∀ node, R false (printRemoteParam cat node context) (printRemoteParam cat node context')
  inSelect : ∀ {x : Bool} {a a' : Action}, R x a a' → ∀ FROM,
    R x (inSelect FROM a) (inSelect FROM a')
  capture : ∀ {x y : Bool} {act act' : Nat → Action} {next next' : List Token → Action},
    (∀ buf buf', Buf buf buf' → R x (act buf) (act' buf')) →
    (∀ tokens, R y (next tokens) (next' tokens)) →
      R (x || y) (fun s => next (intoBuffer act s).1 (intoBuffer act s).2)
        fun s => next' (intoBuffer act' s).1 (intoBuffer act' s).2

variable {Buf : Nat → Nat → Prop} {R : Bool → Action → Action → Prop}

/-- Actions one by one, with the marks. -/
inductive Each (R : Bool → Action → Action → Prop) :
    List Bool → List Action → List Action → Prop
  | nil : Each R [] [] []
  | cons {x : Bool} {a a' : Action} {xs : List Bool} {acts acts' : List Action} :
      R x a a' → Each R xs acts acts' → Each R (x :: xs) (a :: acts) (a' :: acts')

namespace Tracks

theorem text (tracks : Tracks cat Buf R) {buf buf' : Nat} (live : Buf buf buf') (s : String) :
    R false (appendText buf s) (appendText buf' s) :=
  tracks.tokens live fun _ => [.text s]

theorem perform (tracks : Tracks cat Buf R) {xs : List Bool} {acts acts' : List Action}
    (each : Each R xs acts acts') : R (xs.any id) (perform acts) (Emit.perform acts') := by
  induction each with
  | nil => exact tracks.nothing
  | cons first _ rest =>
      have run := tracks.comp first rest
      exact run

theorem separated (tracks : Tracks cat Buf R) {separator separator' : Action}
    (between : R false separator separator') {xs : List Bool} {acts acts' : List Action}
    (each : Each R xs acts acts') :
    R (xs.any id) (Emit.perform (separated separator acts))
      (Emit.perform (Emit.separated separator' acts')) := by
  induction each with
  | nil => exact tracks.nothing
  | cons first rest ih =>
      cases rest with
      | nil =>
          have run := tracks.comp first tracks.nothing
          exact run
      | cons second others =>
          have run := tracks.comp first (tracks.comp between ih)
          exact run

theorem between (tracks : Tracks cat Buf R) {buf buf' : Nat} (live : Buf buf buf') {x : Bool}
    {a a' : Action} (related : R x a a') (opening closing : String) :
    R x (Emit.perform [appendText buf opening, a, appendText buf closing])
      (Emit.perform [appendText buf' opening, a', appendText buf' closing]) := by
  have run := tracks.perform (.cons (tracks.text live opening) (.cons related
    (.cons (tracks.text live closing) .nil)))
  simpa using run

theorem optional (tracks : Tracks cat Buf R) {x : Bool} {a a' : Action} (related : R x a a')
    (c : Bool) : R (c && x) (if c then a else id) (if c then a' else id) := by
  cases c with
  | false => exact tracks.nothing
  | true => exact related

end Tracks

/-! ## Contexts -/

/-- Two contexts that differ in their buffers, and the correlation parameters they have. -/
structure Alike (Buf : Nat → Nat → Prop) (R : Bool → Action → Action → Prop)
    (correlated : Nat → Bool) (context context' : deparse_expr_cxt) : Prop where
  buf : Buf context.buf context'.buf
  scanrel : context.scanrel = context'.scanrel
  has_inlined_subplan : context.has_inlined_subplan = context'.has_inlined_subplan
  subplan : context.subplan = context'.subplan
  args : ∀ paramid, Option.Rel (R (correlated paramid)) (context.correlation_arg paramid)
    (context'.correlation_arg paramid)
  none : ∀ paramid, context.subplan = none ∨ context.correlation_arg paramid = none →
    correlated paramid = false

/-- An emitter prints alike in such contexts. -/
def Follows (Buf : Nat → Nat → Prop) (R : Bool → Action → Action → Prop) (emit : Emitter)
    (reading : Reading) : Prop :=
  ∀ correlated context context', Alike Buf R correlated context context' →
    R (reading correlated) (emit context) (emit context')

abbrev AllFollow (Buf : Nat → Nat → Prop) (R : Bool → Action → Action → Prop)
    (emits : List Emitter) (readings : List Reading) : Prop :=
  List.Forall₂ (Follows Buf R) emits readings

variable {correlated : Nat → Bool} {context context' : deparse_expr_cxt}

theorem Alike.into (alike : Alike Buf R correlated context context') {buf buf' : Nat}
    (live : Buf buf buf') :
    Alike Buf R correlated { context with buf := buf } { context' with buf := buf' } :=
  ⟨live, alike.scanrel, alike.has_inlined_subplan, alike.subplan, alike.args, alike.none⟩

theorem Alike.sub (alike : Alike Buf R correlated context context') (info : SubPlanInfo)
    {args : List Emitter} {readings : List Reading} (follow : AllFollow Buf R args readings) :
    Alike Buf R (argReads info readings correlated) (subcontext info args context)
      (subcontext info args context') := by
  refine ⟨alike.buf, alike.scanrel, rfl, rfl, fun paramid => ?_, fun paramid unset => ?_⟩
  · simp only [subcontext, argReads]
    generalize info.parParam = parParam
    induction follow generalizing parParam with
    | nil => simp
    | @cons emit reading _ _ first _ rest =>
        cases parParam with
        | nil => simp
        | cons head parParam =>
            simp only [List.zip_cons_cons, List.find?_cons]
            by_cases same : (head == paramid) = true
            · simp only [same, Option.map_some, Option.getD_some]
              exact .some (first _ _ _ alike)
            · simp only [same]
              exact rest parParam
  · have missing := unset.resolve_left (Option.some_ne_none info)
    clear unset
    simp only [subcontext, argReads] at missing ⊢
    generalize info.parParam = parParam at missing
    induction follow generalizing parParam with
    | nil => simp
    | @cons emit reading _ _ first _ rest =>
        cases parParam with
        | nil => simp
        | cons head parParam =>
            simp only [List.zip_cons_cons, List.find?_cons] at missing ⊢
            by_cases same : (head == paramid) = true
            · simp [same] at missing
            · simp only [same] at missing ⊢
              exact rest parParam missing

/-! ## Emitters -/

section

variable {emits : List Emitter} {readings : List Reading}

/-- Each emitter of a list, with something around it. -/
theorem each_follow (follow : AllFollow Buf R emits readings)
    (alike : Alike Buf R correlated context context') {wrap wrap' : Action → Action}
    (wrapped : ∀ {x a a'}, R x a a' → R x (wrap a) (wrap' a')) :
    Each R (readings.map fun reading => reading correlated)
      (emits.map fun emit => wrap (emit context))
      (emits.map fun emit => wrap' (emit context')) := by
  induction follow with
  | nil => exact .nil
  | cons first _ rest => exact .cons (wrapped (first _ _ _ alike)) rest

theorem any_map_eq (readings : List Reading) (correlated : Nat → Bool) :
    (readings.map fun reading => reading correlated).any id = anyReads readings correlated := by
  rw [List.any_map]
  rfl

theorem related_getElem? (follow : AllFollow Buf R emits readings) (i : Nat) :
    Option.Rel (Follows Buf R) emits[i]? readings[i]? := by
  induction follow generalizing i with
  | nil => exact .none
  | cons first _ rest =>
      cases i with
      | zero => exact .some first
      | succ i => exact rest i

variable (tracks : Tracks cat Buf R)

include tracks

theorem follows_appendConditions (follow : AllFollow Buf R emits readings) :
    Follows Buf R (appendConditions emits) (anyReads readings) := by
  intro correlated context context' alike
  rw [← any_map_eq]
  exact tracks.separated (tracks.text alike.buf _)
    (each_follow follow alike fun related => tracks.between alike.buf related "(" ")")

theorem follows_appendList (follow : AllFollow Buf R emits readings) :
    Follows Buf R (appendList emits) (anyReads readings) := by
  intro correlated context context' alike
  rw [← any_map_eq]
  exact tracks.separated (tracks.text alike.buf _)
    (each_follow follow alike fun related => related)

theorem follows_appendClause (keyword : String) (follow : AllFollow Buf R emits readings)
    {body : Emitter} (bodyFollows : Follows Buf R body (anyReads readings)) :
    Follows Buf R (appendClause keyword emits body) (anyReads readings) := by
  intro correlated context context' alike
  cases follow with
  | nil => exact tracks.nothing
  | cons first rest =>
      have run := tracks.comp (tracks.text alike.buf keyword) (bodyFollows _ _ _ alike)
      exact run

theorem follows_operand (follow : AllFollow Buf R emits readings)
    (alike : Alike Buf R correlated context context') (i : Nat) :
    R (operandReads readings i correlated) ((emits[i]?.map fun emit => emit context).getD id)
      ((emits[i]?.map fun emit => emit context').getD id) := by
  have operand := related_getElem? follow i
  rw [operandReads]
  generalize emits[i]? = emitter at operand
  generalize readings[i]? = reading at operand
  cases operand with
  | none => exact tracks.nothing
  | some follows => exact follows _ _ _ alike

theorem tracks_deparseColumnRef (alike : Alike Buf R correlated context context')
    (qualifier : Option Alias) (rte : Rte) (varattno : Int) :
    R false (deparseColumnRef cat qualifier rte varattno context)
      (deparseColumnRef cat qualifier rte varattno context') :=
  tracks.comp (tracks.raise (decide (varattno ≤ 0))) (tracks.tokens alike.buf fun path =>
    [.column path qualifier (.named (cat.column_name rte varattno)) (.column rte varattno)])

theorem follows_deparseVar (node : Var) :
    Follows Buf R (deparseVar cat node) fun _ => false := by
  intro correlated context context' alike
  simp only [deparseVar, ← alike.subplan, ← alike.scanrel, ← alike.has_inlined_subplan]
  cases context.subplan with
  | some info => exact tracks_deparseColumnRef tracks alike _ _ _
  | none =>
      rcases is_subquery_var node context.scanrel with _ | _ | ids
      · simp only
        split
        · exact tracks_deparseColumnRef tracks alike _ _ _
        · exact tracks.remote alike.buf _
      · have raised := tracks.raise true
        simp only [Bool.or_true] at raised
        exact raised
      · exact tracks.tokens alike.buf fun path => [.column path _ _ _]

theorem follows_deparseParam (node : Param) :
    Follows Buf R (deparseParam cat node) (Expr.Param node).correlates := by
  intro correlated context context' alike
  have args := alike.args node.paramid
  have none := alike.none node.paramid
  rw [Expr.correlates, deparseParam, deparseParam, ← alike.subplan]
  by_cases inScope : context.subplan.isSome ∧ node.paramkind = .PARAM_EXEC
  · rw [if_pos inScope, if_pos inScope, decide_eq_true inScope.2, Bool.true_and]
    generalize correlated node.paramid = given at args none
    generalize context.correlation_arg node.paramid = arg at args none
    generalize context'.correlation_arg node.paramid = arg' at args
    cases args with
    | none =>
        rw [none (.inr rfl)]
        exact tracks.remote alike.buf _
    | some related => exact tracks.between alike.buf related "(" ")"
  · have unread : (decide (node.paramkind = .PARAM_EXEC) && correlated node.paramid) = false := by
      by_cases exec : node.paramkind = .PARAM_EXEC
      · have outer : context.subplan = Option.none := by
          simpa [exec] using inScope
        rw [none (.inl outer), Bool.and_false]
      · rw [decide_eq_false exec, Bool.false_and]
    rw [if_neg inScope, if_neg inScope, unread]
    exact tracks.remote alike.buf _

theorem follows_appendPiece (follow : AllFollow Buf R emits readings)
    (alike : Alike Buf R correlated context context') (captured : List (List Token))
    (piece : Piece) :
    R (piece.reads readings correlated) (appendPiece cat emits captured piece context)
      (appendPiece cat emits captured piece context') := by
  cases piece with
  | text text => exact tracks.text alike.buf text
  | operand i => exact follows_operand tracks follow alike i
  | captured k => exact tracks.tokens alike.buf fun _ => captured[k]?.getD []
  | sign =>
      simp only [appendPiece, appendSign, ← alike.scanrel]
      cases context.scanrel with
      | base => exact tracks.tokens alike.buf fun path => [.column path _ _ _]
      | join => exact tracks.nothing

theorem tracks_captureAll (follow : AllFollow Buf R emits readings)
    (alike : Alike Buf R correlated context context') (captures : List Nat) {y : Bool}
    {next next' : List (List Token) → Action}
    (related : ∀ captured, R y (next captured) (next' captured)) :
    R ((captures.any fun i => operandReads readings i correlated) || y)
      (fun s => next (captureAll emits context captures s).1
        (captureAll emits context captures s).2)
      fun s => next' (captureAll emits context' captures s).1
        (captureAll emits context' captures s).2 := by
  induction captures generalizing next next' with
  | nil => exact related []
  | cons i captures ih =>
      have rest (tokens : List Token) := ih fun captured => related (tokens :: captured)
      rw [List.any_cons, Bool.or_assoc]
      simp only [captureAll]
      have operand : Option.Rel (Follows Buf R) emits[i]? readings[i]? :=
        related_getElem? follow i
      rw [operandReads]
      generalize emits[i]? = emitter at operand
      generalize readings[i]? = reading at operand
      cases operand with
      | none => exact rest []
      | some follows =>
          exact tracks.capture (fun buf buf' live => follows _ _ _ (alike.into live)) rest

theorem follows_appendTemplate (follow : AllFollow Buf R emits readings) (template : Template) :
    Follows Buf R (appendTemplate cat emits template) (template.reads readings) := by
  intro correlated context context' alike
  have pieces (captured : List (List Token)) : Each R
      (template.pieces.map fun piece => piece.reads readings correlated)
      (template.pieces.map fun piece => appendPiece cat emits captured piece context)
      (template.pieces.map fun piece => appendPiece cat emits captured piece context') := by
    induction template.pieces with
    | nil => exact .nil
    | cons piece pieces ih =>
        exact .cons (follows_appendPiece tracks follow alike captured piece) ih
  have run := tracks_captureAll tracks follow alike template.captures fun captured =>
    tracks.perform (pieces captured)
  rw [List.any_map] at run
  exact run

end

/-! ## Subplans -/

structure SubPlanParts.AllFollow (Buf : Nat → Nat → Prop) (R : Bool → Action → Action → Prop)
    (parts : SubPlanParts) (readings : PartsRead) : Prop where
  args : Emit.AllFollow Buf R parts.args readings.args
  probe : Emit.AllFollow Buf R parts.probe readings.probe
  targetList : Emit.AllFollow Buf R parts.targetList readings.targetList
  quals : Emit.AllFollow Buf R parts.quals readings.quals
  groupClause : Emit.AllFollow Buf R parts.groupClause readings.groupClause
  havingQual : Emit.AllFollow Buf R parts.havingQual readings.havingQual

section

variable (info : SubPlanInfo) {parts : SubPlanParts} {readings : PartsRead}

def nullProbeReads (readings : PartsRead) : Reading := fun correlated =>
  let inner := argReads info readings.args correlated
  anyReads readings.quals inner || operandReads readings.targetList 0 inner ||
    anyReads readings.groupClause inner || anyReads readings.havingQual inner

/-- What the null probe reads is read by the body. -/
theorem body_of_nullProbe (any : info.subLinkType = .ANY)
    (reads : nullProbeReads info readings correlated = true) :
    bodyReads info readings correlated = true := by
  have output (inner : Nat → Bool) : operandReads readings.targetList 0 inner = true →
      anyReads readings.targetList inner = true := by
    intro reads
    rw [operandReads] at reads
    cases first : readings.targetList[0]? with
    | none => simp [first] at reads
    | some reading =>
        rw [first] at reads
        exact List.any_eq_true.mpr ⟨reading, List.mem_of_getElem? first, reads⟩
  have target := output (argReads info readings.args correlated)
  simp only [bodyReads, nullProbeReads, any, reduceCtorEq, if_false, Bool.or_eq_true] at reads ⊢
  tauto

variable (tracks : Tracks cat Buf R)

include tracks

theorem tracks_deparseSubPlanFrom (alike : Alike Buf R correlated context context') :
    R false (deparseSubPlanFrom info context) (deparseSubPlanFrom info context') := by
  have each (entries : List FromEntry) : Each R (entries.map fun _ => false)
      (entries.map (appendEntry context.buf)) (entries.map (appendEntry context'.buf)) := by
    induction entries with
    | nil => exact .nil
    | cons entry entries ih =>
        exact .cons (tracks.tokens alike.buf fun path => [.entry path entry]) ih
  have run := tracks.separated (tracks.text alike.buf ", ") (each (subPlanEntries info))
  have marks : ((subPlanEntries info).map fun _ => false).any id = false := by
    simp
  rw [marks] at run
  exact run

/-- The mark of a body: that of the null probe is one of its targets. -/
theorem follows_deparseSubPlanQuery (follow : parts.AllFollow Buf R readings)
    (form : SubPlanBodyForm) (alike : Alike Buf R correlated context context') :
    let inner := argReads info readings.args correlated
    R ((if form = .NULL_PROBE ∨ info.subLinkType = .EXISTS then false
          else anyReads readings.targetList inner) || anyReads readings.quals inner ||
        (decide (form = .NULL_PROBE) && operandReads readings.targetList 0 inner) ||
        anyReads readings.groupClause inner || anyReads readings.havingQual inner)
      (deparseSubPlanQuery info parts form context)
      (deparseSubPlanQuery info parts form context') := by
  intro inner
  have sub := alike.sub info follow.args
  have target : R (if form = .NULL_PROBE ∨ info.subLinkType = .EXISTS then false
      else anyReads readings.targetList inner)
      (appendTargetList info parts form (subcontext info parts.args context))
      (appendTargetList info parts form (subcontext info parts.args context')) := by
    rw [appendTargetList, appendTargetList]
    split
    · exact tracks.text sub.buf "1"
    · exact follows_appendList tracks follow.targetList _ _ _ sub
  have probe : R (decide (form = .NULL_PROBE) && operandReads readings.targetList 0 inner)
      (if form = .NULL_PROBE then appendNullProbe parts (subcontext info parts.args context)
        else id)
      (if form = .NULL_PROBE then appendNullProbe parts (subcontext info parts.args context')
        else id) := by
    by_cases probing : form = .NULL_PROBE
    · rw [if_pos probing, if_pos probing, decide_eq_true probing, Bool.true_and,
        appendNullProbe, appendNullProbe, List.head?_eq_getElem?]
      exact tracks.between sub.buf (follows_operand tracks follow.targetList sub 0) _ _
    · rw [if_neg probing, if_neg probing, decide_eq_false probing, Bool.false_and]
      exact tracks.nothing
  have clauses := tracks.perform
    (.cons (tracks.text sub.buf "SELECT ") (.cons target
      (.cons (tracks.text sub.buf " FROM ") (.cons (tracks_deparseSubPlanFrom info tracks sub)
        (.cons (follows_appendClause tracks " WHERE " follow.quals
            (follows_appendConditions tracks follow.quals) _ _ _ sub) (.cons probe
          (.cons (follows_appendClause tracks " GROUP BY " follow.groupClause
              (follows_appendList tracks follow.groupClause) _ _ _ sub)
            (.cons (follows_appendClause tracks " HAVING " follow.havingQual
              (follows_appendConditions tracks follow.havingQual) _ _ _ sub) .nil))))))))
  have select := tracks.inSelect clauses (subPlanEntries info)
  simp only [List.any_cons, List.any_nil, id_eq, Bool.false_or, Bool.or_false,
    ← Bool.or_assoc] at select
  exact select

theorem follows_body (follow : parts.AllFollow Buf R readings)
    (alike : Alike Buf R correlated context context') :
    R (bodyReads info readings correlated) (deparseSubPlanQuery info parts .QUERY context)
      (deparseSubPlanQuery info parts .QUERY context') := by
  have run := follows_deparseSubPlanQuery info tracks follow .QUERY alike
  simpa [bodyReads] using run

theorem follows_probe (follow : parts.AllFollow Buf R readings)
    (alike : Alike Buf R correlated context context') :
    R (anyReads readings.probe correlated)
      (perform (parts.probe.map fun emit => emit context))
      (perform (parts.probe.map fun emit => emit context')) := by
  rw [← any_map_eq]
  exact tracks.perform (each_follow follow.probe alike fun related => related)

theorem follows_deparseSubPlan (follow : parts.AllFollow Buf R readings) :
    Follows Buf R (deparseSubPlan info parts) (subPlanReads info readings) := by
  intro correlated context context' alike
  have body := follows_body info tracks follow alike
  rw [deparseSubPlan, deparseSubPlan, subPlanReads]
  cases link : info.subLinkType with
  | EXISTS => exact tracks.between alike.buf body _ _
  | EXPR => exact tracks.between alike.buf body _ _
  | ANY =>
      have run := tracks.perform (.cons (tracks.text alike.buf "(")
        (.cons (follows_probe tracks follow alike) (.cons (tracks.text alike.buf " IN (")
          (.cons body (.cons (tracks.text alike.buf "))") .nil)))))
      simpa using run

theorem follows_nullProbe (follow : parts.AllFollow Buf R readings)
    (alike : Alike Buf R correlated context context') :
    R (nullProbeReads info readings correlated) (deparseSubPlanQuery info parts .NULL_PROBE context)
      (deparseSubPlanQuery info parts .NULL_PROBE context') := by
  have run := follows_deparseSubPlanQuery info tracks follow .NULL_PROBE alike
  simpa [nullProbeReads] using run

theorem follows_deparseGuardedNotIn (follow : parts.AllFollow Buf R readings)
    (any : info.subLinkType = .ANY) :
    Follows Buf R (deparseGuardedNotIn info parts) (subPlanReads info readings) := by
  intro correlated context context' alike
  have probe := follows_probe tracks follow alike
  have body := follows_body info tracks follow alike
  have nullProbe := follows_nullProbe info tracks follow alike
  have text (s : String) := tracks.text alike.buf s
  have plain := tracks.perform (.cons (text "(") (.cons probe (.cons (text " NOT IN (")
    (.cons body (.cons (text ")") .nil)))))
  have guard := tracks.perform (.cons (text "(CASE WHEN (") (.cons probe
    (.cons (text ") IS NULL THEN NOT EXISTS (") (.cons body (.cons (text ") ELSE ") .nil)))))
  have poison := tracks.between alike.buf nullProbe " AND NOT EXISTS (" ")"
  have run := tracks.perform (.cons (tracks.optional guard info.nulls.PROBE_NULLABLE)
    (.cons plain (.cons (tracks.optional poison info.nulls.OUTPUT_NULLABLE) (.cons (text ")")
      (.cons (tracks.optional (text " END)") info.nulls.PROBE_NULLABLE) .nil)))))
  have absorbed : nullProbeReads info readings correlated = true → _ := body_of_nullProbe info any
  rw [subPlanReads, if_pos any]
  simp only [List.any_cons, List.any_nil, id_eq, Bool.false_or, Bool.or_false] at run
  generalize nullProbeReads info readings correlated = null at run absorbed
  generalize bodyReads info readings correlated = body at run absorbed
  generalize anyReads readings.probe correlated = probe at run
  have marks : (info.nulls.PROBE_NULLABLE && (probe || body) || (probe || body ||
      (info.nulls.OUTPUT_NULLABLE && null || info.nulls.PROBE_NULLABLE && false))) =
        (probe || body) := by
    grind
  rw [marks] at run
  exact run

end

/-! ## Expressions -/

section

variable (tracks : Tracks cat Buf R)

include tracks

theorem follows_parenthesized {emit : Emitter} {reading : Reading} (opening closing : String)
    (follows : Follows Buf R emit reading) :
    Follows Buf R (fun context =>
      perform [appendText context.buf opening, emit context, appendText context.buf closing])
        reading :=
  fun _ _ _ alike => tracks.between alike.buf (follows _ _ _ alike) opening closing

theorem follows_sortGroupClauses {exprs : List Expr}
    (follow : AllFollow Buf R (deparseExprs cat exprs) (correlatesList exprs)) :
    AllFollow Buf R (List.zipWith deparseSortGroupClause exprs (deparseExprs cat exprs))
      (correlatesList exprs) := by
  induction exprs with
  | nil => exact .nil
  | cons e exprs ih =>
      rw [deparseExprs, correlatesList] at follow ⊢
      cases follow with
      | cons first rest =>
          refine .cons ?_ (ih rest)
          cases e with
          | Var node => exact first
          | Param | node | NOT | SubPlan => exact follows_parenthesized tracks "(" ")" first

end

mutual

theorem tracks_deparseExpr (tracks : Tracks cat Buf R) :
    ∀ e : Expr, Follows Buf R (deparseExpr cat e) e.correlates
  | .Var node => by
      rw [deparseExpr]
      exact follows_deparseVar tracks node
  | .Param node => by
      rw [deparseExpr]
      exact follows_deparseParam tracks node
  | .node args unseen template => by
      rw [deparseExpr]
      exact follows_appendTemplate tracks
        (List.rel_append (tracks_deparseExprs tracks args) (tracks_deparseExprs tracks unseen))
        template
  | .NOT (.SubPlan info args probe targetList quals groupClause havingQual) => by
      rw [deparseExpr]
      have follow : SubPlanParts.AllFollow Buf R
          ⟨deparseExprs cat args, deparseExprs cat probe, deparseExprs cat targetList,
            deparseExprs cat quals,
            List.zipWith deparseSortGroupClause groupClause (deparseExprs cat groupClause),
            deparseExprs cat havingQual⟩
          ⟨correlatesList args, correlatesList probe, correlatesList targetList,
            correlatesList quals, correlatesList groupClause, correlatesList havingQual⟩ :=
        ⟨tracks_deparseExprs tracks args, tracks_deparseExprs tracks probe,
          tracks_deparseExprs tracks targetList, tracks_deparseExprs tracks quals,
          follows_sortGroupClauses tracks (tracks_deparseExprs tracks groupClause),
          tracks_deparseExprs tracks havingQual⟩
      by_cases guarded : info.subLinkType = .ANY ∧ info.guarded
      · simp only [if_pos guarded]
        exact follows_deparseGuardedNotIn info tracks follow guarded.1
      · simp only [if_neg guarded]
        exact follows_parenthesized tracks "(NOT " ")" (follows_deparseSubPlan info tracks follow)
  | .NOT (.Var node) => by
      rw [deparseExpr]
      exact follows_parenthesized tracks "(NOT " ")" (tracks_deparseExpr tracks (.Var node))
      nofun
  | .NOT (.Param node) => by
      rw [deparseExpr]
      exact follows_parenthesized tracks "(NOT " ")" (tracks_deparseExpr tracks (.Param node))
      nofun
  | .NOT (.node args unseen template) => by
      rw [deparseExpr]
      exact follows_parenthesized tracks "(NOT " ")"
        (tracks_deparseExpr tracks (.node args unseen template))
      nofun
  | .NOT (.NOT arg) => by
      rw [deparseExpr]
      exact follows_parenthesized tracks "(NOT " ")" (tracks_deparseExpr tracks (.NOT arg))
      nofun
  | .SubPlan info args probe targetList quals groupClause havingQual => by
      rw [deparseExpr]
      exact follows_deparseSubPlan info tracks
        ⟨tracks_deparseExprs tracks args, tracks_deparseExprs tracks probe,
          tracks_deparseExprs tracks targetList, tracks_deparseExprs tracks quals,
          follows_sortGroupClauses tracks (tracks_deparseExprs tracks groupClause),
          tracks_deparseExprs tracks havingQual⟩

theorem tracks_deparseExprs (tracks : Tracks cat Buf R) : ∀ exprs : List Expr,
    AllFollow Buf R (deparseExprs cat exprs) (correlatesList exprs)
  | [] => by
      rw [deparseExprs]
      exact .nil
  | e :: exprs => by
      rw [deparseExprs]
      exact .cons (tracks_deparseExpr tracks e) (tracks_deparseExprs tracks exprs)

end

/-! ## Appended and captured -/

/-- A run that prints into buffer `k`, and one that captures in buffer `n`, the first that is
unused: what is captured was appended, and no other buffer in use differs from `base`. -/
structure Mirror (k n : Nat) (base : Nat → List Token) (s s' : State) : Prop where
  params_list : s'.params_list = s.params_list
  path : s'.path = s.path
  error : s'.error = s.error
  next : s'.next = s.next + 1
  above : n ≤ s.next
  kept : ∀ b < n, s'.bufs b = base b
  text : s.bufs k = base k ++ s'.bufs n
  fresh : ∀ b, n ≤ b → s.bufs b = s'.bufs (b + 1)

/-- The buffers the two runs use. -/
def Twin (k n b b' : Nat) : Prop :=
  b = k ∧ b' = n ∨ n ≤ b ∧ b' = b + 1

def Mirrors (k n : Nat) (base : Nat → List Token) (x : Bool) (a a' : Action) : Prop :=
  x = false → ∀ s s', Mirror k n base s s' → Mirror k n base (a s) (a' s')

section

variable {k n : Nat} {base : Nat → List Token}

theorem mirror_append (below : k < n) {s s' : State} (mirror : Mirror k n base s s') {b b' : Nat}
    (twin : Twin k n b b') (tokens : List Token) :
    Mirror k n base (append b tokens s) (append b' tokens s') := by
  refine ⟨mirror.params_list, mirror.path, mirror.error, mirror.next, mirror.above, ?_, ?_, ?_⟩
  · intro c kept
    have other : c ≠ b' := by
      rcases twin with ⟨-, rfl⟩ | ⟨above, rfl⟩
      · omega
      · omega
    exact (Function.update_of_ne other _ _).trans (mirror.kept c kept)
  · rcases twin with ⟨rfl, rfl⟩ | ⟨above, rfl⟩
    · simp only [append, Function.update_self]
      rw [mirror.text, List.append_assoc]
    · have other : k ≠ b := by omega
      have other' : n ≠ b + 1 := by omega
      simp only [append, Function.update_of_ne other, Function.update_of_ne other']
      exact mirror.text
  · intro c fresh
    rcases twin with ⟨rfl, rfl⟩ | ⟨above, rfl⟩
    · have other : c ≠ b := by omega
      have other' : c + 1 ≠ b' := by omega
      simp only [append, Function.update_of_ne other, Function.update_of_ne other']
      exact mirror.fresh c fresh
    · by_cases same : c = b
      · simp only [append, same, Function.update_self, mirror.fresh b above]
      · have other : c + 1 ≠ b + 1 := by omega
        simp only [append, Function.update_of_ne same, Function.update_of_ne other]
        exact mirror.fresh c fresh

theorem mirror_intoBuffer {x : Bool} {act act' : Nat → Action} {s s' : State}
    (mirrors : ∀ b b', Twin k n b b' → Mirrors k n base x (act b) (act' b')) (silent : x = false)
    (mirror : Mirror k n base s s') :
    (intoBuffer act' s').1 = (intoBuffer act s).1 ∧
      Mirror k n base (intoBuffer act s).2 (intoBuffer act' s').2 := by
  have twin : Twin k n s.next s'.next := .inr ⟨mirror.above, mirror.next⟩
  have run := mirrors _ _ twin silent { s with next := s.next + 1 }
    { s' with next := s'.next + 1 }
    ⟨mirror.params_list, mirror.path, mirror.error, congrArg Nat.succ mirror.next,
      Nat.le_succ_of_le mirror.above, mirror.kept, mirror.text, mirror.fresh⟩
  refine ⟨?_, run⟩
  exact (congrArg _ mirror.next).trans (run.fresh s.next mirror.above).symm

theorem tracks_mirrors (cat : Catalog) (below : k < n) :
    Tracks cat (Twin k n) (Mirrors k n base) where
  nothing _ _ _ mirror := mirror
  comp := by
    intro x y a a' b b' first second silent s s' mirror
    rw [Bool.or_eq_false_iff] at silent
    exact second silent.2 _ _ (first silent.1 _ _ mirror)
  tokens := by
    intro buf buf' live tokens _ s s' mirror
    simp only [mirror.path]
    exact mirror_append below mirror live _
  raise := by
    intro v _ s s' mirror
    exact { mirror with error := congrArg (· || v) mirror.error }
  remote := by
    intro context context' live node _ s s' mirror
    simp only [printRemoteParam, mirror.params_list]
    cases s.params_list.findIdx? (· = node) with
    | some i => exact mirror_append below mirror live _
    | none =>
        have listed : Mirror k n base { s with params_list := s.params_list ++ [node] }
            { s' with params_list := s.params_list ++ [node] } :=
          { mirror with params_list := rfl }
        exact mirror_append below listed live _
  inSelect := by
    intro x a a' related FROM silent s s' mirror
    have run := related silent { s with path := s.path ++ [FROM] }
      { s' with path := s'.path ++ [FROM] }
      { mirror with path := congrArg (· ++ [FROM]) mirror.path }
    exact { run with path := mirror.path }
  capture := by
    intro x y act act' next next' related rest silent s s' mirror
    rw [Bool.or_eq_false_iff] at silent
    obtain ⟨same, run⟩ := mirror_intoBuffer related silent.1 mirror
    simp only [same]
    exact rest _ silent.2 _ _ run

end

/-! ## Growth -/

/-- An action appends to a buffer or leaves it alone; where it is marked, it appends to `p`
unless it raises. -/
def Swells (p : Nat) (x : Bool) (act : Action) : Prop :=
  ∀ s, (s.error = true → (act s).error = true) ∧
    (s.bufs p).length ≤ ((act s).bufs p).length ∧
    (x = true → (act s).error = false → (s.bufs p).length < ((act s).bufs p).length)

theorem swells_append (p b : Nat) (tokens : List Token) (s : State) :
    (s.bufs p).length ≤ ((append b tokens s).bufs p).length := by
  rw [append]
  by_cases same : p = b
  · simp [same]
  · simp [Function.update_of_ne same]

theorem Swells.comp {p : Nat} {x y : Bool} {a b : Action} (first : Swells p x a)
    (second : Swells p y b) : Swells p (x || y) fun s => b (a s) := by
  intro s
  obtain ⟨raised, grown, marked⟩ := first s
  obtain ⟨raised', grown', marked'⟩ := second (a s)
  refine ⟨fun error => raised' (raised error), Nat.le_trans grown grown', ?_⟩
  intro mark returns
  have before : (a s).error = false := by
    by_contra error
    rw [Bool.not_eq_false] at error
    rw [raised' error] at returns
    cases returns
  rcases Bool.or_eq_true_iff.mp mark with mark | mark
  · exact Nat.lt_of_lt_of_le (marked mark before) grown'
  · exact Nat.lt_of_le_of_lt grown (marked' mark returns)

/-- As a property of two runs, of which only the first matters. -/
def Swelling (p : Nat) (x : Bool) (act _act' : Action) : Prop :=
  Swells p x act

def Anywhere (_buf _buf' : Nat) : Prop :=
  True

theorem tracks_swells (cat : Catalog) (p : Nat) :
    Tracks cat Anywhere (Swelling p) where
  nothing s := ⟨id, Nat.le_refl _, fun mark => Bool.noConfusion mark⟩
  comp first second := first.comp second
  tokens := by
    intro buf buf' _ tokens s
    exact ⟨id, swells_append p buf _ s, fun mark => Bool.noConfusion mark⟩
  raise := by
    intro v s
    refine ⟨fun error => ?_, Nat.le_refl _, fun mark => Bool.noConfusion mark⟩
    simp only [error, Bool.true_or]
  remote := by
    intro context context' _ node s
    simp only [printRemoteParam]
    cases s.params_list.findIdx? (· = node) with
    | some i => exact ⟨id, swells_append p _ _ s, fun mark => Bool.noConfusion mark⟩
    | none =>
        exact ⟨id, swells_append p _ _ { s with params_list := s.params_list ++ [node] },
          fun mark => Bool.noConfusion mark⟩
  inSelect := by
    intro x a a' related FROM s
    exact related { s with path := s.path ++ [FROM] }
  capture := by
    intro x y act act' next next' related rest s
    -- the captured text is not known before the run
    have second := rest (intoBuffer act s).1
    have first : Swells p x fun t => act s.next { t with next := t.next + 1 } := fun t =>
      related s.next s.next trivial { t with next := t.next + 1 }
    exact first.comp second s

theorem Swells.forget {p : Nat} {x : Bool} {act : Action} (swells : Swells p x act) :
    Swells p false act := fun s =>
  ⟨(swells s).1, (swells s).2.1, fun mark => Bool.noConfusion mark⟩

/-- One action after the other appends where one of them does. -/
theorem speaks_perform {p : Nat} {acts : List Action} (all : ∀ act ∈ acts, Swells p false act)
    {act : Action} (member : act ∈ acts) (speaks : Swells p true act) :
    Swells p true (perform acts) := by
  have rest (acts : List Action) (all : ∀ act ∈ acts, Swells p false act) :
      Swells p false (perform acts) := by
    induction acts with
    | nil => exact fun s => ⟨id, Nat.le_refl _, fun mark => Bool.noConfusion mark⟩
    | cons act acts ih =>
        obtain ⟨first, others⟩ := List.forall_mem_cons.mp all
        exact first.comp (ih others)
  induction acts with
  | nil => exact absurd member List.not_mem_nil
  | cons act' acts ih =>
      obtain ⟨first, others⟩ := List.forall_mem_cons.mp all
      rcases List.mem_cons.mp member with rfl | member
      · exact speaks.comp (rest acts others)
      · exact first.comp (ih others member)

/-- The emitter of an expression has a text of its own. -/
def Expr.Worded : Expr → Prop
  | .node _ _ template => ∃ text, Piece.text text ∈ template.pieces
  | _ => True

section

variable {p : Nat}

theorem speaks_append (token : Path → Token) :
    Swells p true fun s => append p [token s.path] s := by
  intro s
  refine ⟨id, swells_append p p _ s, fun _ _ => ?_⟩
  simp only [append, Function.update_self, List.length_append, List.length_singleton]
  omega

theorem speaks_text (text : String) : Swells p true (appendText p text) :=
  speaks_append fun _ => .text text

theorem speaks_columnRef (qualifier : Option Alias) (rte : Rte) (varattno : Int)
    {context : deparse_expr_cxt} (own : context.buf = p) :
    Swells p true (deparseColumnRef cat qualifier rte varattno context) := by
  have column := speaks_append (p := p) fun path =>
    .column path qualifier (.named (cat.column_name rte varattno)) (.column rte varattno)
  rw [← own] at column ⊢
  exact ((tracks_swells cat _).raise (decide (varattno ≤ 0))).comp column

theorem speaks_remote (node : ParamExpr) {context : deparse_expr_cxt} (own : context.buf = p) :
    Swells p true (printRemoteParam cat node context) := by
  intro s
  have placeholder (n : Nat) :=
    speaks_append (p := p) fun _ => .placeholder n (node.remote_type cat) node
  rw [printRemoteParam, own]
  split
  · rename_i i _
    exact placeholder (i + 1) s
  · exact placeholder (s.params_list.length + 1)
      { s with params_list := s.params_list ++ [node] }

/-- Every action of a context appends to `p` or leaves it alone. -/
abbrev Growing (p : Nat) (correlated : Nat → Bool) (context : deparse_expr_cxt) : Prop :=
  Alike Anywhere (Swelling p) correlated context context

variable {context : deparse_expr_cxt} {correlated : Nat → Bool}

theorem speaks_deparseVar (node : Var) (own : context.buf = p) :
    Swells p true (deparseVar cat node context) := by
  simp only [deparseVar]
  cases context.subplan with
  | some info => exact speaks_columnRef _ _ _ own
  | none =>
      rcases is_subquery_var node context.scanrel with _ | _ | ids
      · simp only
        split
        · exact speaks_columnRef _ _ _ own
        · exact speaks_remote _ own
      · intro s
        exact ⟨fun _ => rfl, Nat.le_refl _, fun _ returns => Bool.noConfusion returns⟩
      · exact own ▸ speaks_append fun path => .column path _ _ _

theorem speaks_deparseParam (node : Param) (own : context.buf = p)
    (growing : Growing p correlated context) : Swells p true (deparseParam cat node context) := by
  have args := growing.args node.paramid
  rw [deparseParam]
  split
  · rename_i outer arg
    split at arg
    · rw [arg] at args
      cases args with
      | some outer =>
          subst own
          refine speaks_perform ?_ List.mem_cons_self (speaks_text "(")
          simp only [List.forall_mem_cons, List.not_mem_nil, IsEmpty.forall_iff, implies_true,
            and_true]
          exact ⟨(speaks_text "(").forget, Swells.forget outer, (speaks_text ")").forget⟩
    · cases arg
  · exact speaks_remote _ own

/-- A template with a text. -/
theorem speaks_appendTemplate {operands : List Emitter} {readings : List Reading}
    (follow : AllFollow Anywhere (Swelling p) operands readings)
    {template : Template} {text : String} (worded : .text text ∈ template.pieces)
    (own : context.buf = p) (growing : Growing p correlated context) :
    Swells p true (appendTemplate cat operands template context) := by
  let body (captured : List (List Token)) : Action :=
    perform (template.pieces.map fun piece => appendPiece cat operands captured piece context)
  have pieces (captured : List (List Token)) : Swelling p true (body captured) (body captured) := by
    refine speaks_perform ?_ (List.mem_map_of_mem worded) (own ▸ speaks_text text)
    intro act member
    obtain ⟨piece, -, rfl⟩ := List.mem_map.mp member
    have appended := follows_appendPiece (tracks_swells cat p) follow growing captured piece
    exact Swells.forget appended
  have run := tracks_captureAll (tracks_swells cat p) follow growing template.captures pieces
  rw [Bool.or_true] at run
  exact run

variable {info : SubPlanInfo} {parts : SubPlanParts} {readings : PartsRead}

theorem speaks_deparseSubPlan (cat : Catalog)
    (follow : parts.AllFollow Anywhere (Swelling p) readings)
    (own : context.buf = p) (growing : Growing p correlated context) :
    Swells p true (deparseSubPlan info parts context) := by
  have body := Swells.forget (follows_body info (tracks_swells cat p) follow growing)
  have probe := Swells.forget (follows_probe (tracks_swells cat p) follow growing)
  have text (s : String) : Swells p true (appendText context.buf s) := own ▸ speaks_text s
  rw [deparseSubPlan]
  cases info.subLinkType with
  | EXISTS | EXPR =>
      refine speaks_perform ?_ List.mem_cons_self (text _)
      simp only [List.forall_mem_cons, List.not_mem_nil, IsEmpty.forall_iff, implies_true,
            and_true]
      exact ⟨(text _).forget, body, (text _).forget⟩
  | ANY =>
      refine speaks_perform ?_ List.mem_cons_self (text _)
      simp only [List.forall_mem_cons, List.not_mem_nil, IsEmpty.forall_iff, implies_true,
            and_true]
      exact ⟨(text _).forget, probe, (text _).forget, body, (text _).forget⟩

theorem speaks_deparseGuardedNotIn (cat : Catalog)
    (follow : parts.AllFollow Anywhere (Swelling p) readings) (own : context.buf = p)
    (growing : Growing p correlated context) :
    Swells p true (deparseGuardedNotIn info parts context) := by
  have tracks := tracks_swells cat p
  have body := Swells.forget (follows_body info tracks follow growing)
  have probe := Swells.forget (follows_probe tracks follow growing)
  have nullProbe := Swells.forget (follows_nullProbe info tracks follow growing)
  have text (s : String) : Swells p true (appendText context.buf s) := own ▸ speaks_text s
  have optional (c : Bool) {act : Action} (swells : Swells p false act) :
      Swells p false (if c then act else id) := by
    cases c with
    | false => exact tracks.nothing
    | true => exact swells
  rw [deparseGuardedNotIn]
  refine speaks_perform ?_ (List.mem_cons_of_mem _ (List.mem_cons_of_mem _
    (List.mem_cons_of_mem _ List.mem_cons_self))) (text ")")
  simp only [List.forall_mem_cons, List.not_mem_nil, IsEmpty.forall_iff, implies_true, and_true]
  refine ⟨optional _ ?_, ?_, optional _ ?_, (text _).forget, optional _ (text _).forget⟩
  · refine (speaks_perform ?_ List.mem_cons_self (text _)).forget
    simp only [List.forall_mem_cons, List.not_mem_nil, IsEmpty.forall_iff, implies_true, and_true]
    exact ⟨(text _).forget, probe, (text _).forget, body, (text _).forget⟩
  · refine (speaks_perform ?_ List.mem_cons_self (text _)).forget
    simp only [List.forall_mem_cons, List.not_mem_nil, IsEmpty.forall_iff, implies_true, and_true]
    exact ⟨(text _).forget, probe, (text _).forget, body, (text _).forget⟩
  · refine (speaks_perform ?_ List.mem_cons_self (text _)).forget
    simp only [List.forall_mem_cons, List.not_mem_nil, IsEmpty.forall_iff, implies_true, and_true]
    exact ⟨(text _).forget, nullProbe, (text _).forget⟩

/-- The parts of a subplan follow. -/
theorem parts_follow {Buf : Nat → Nat → Prop} {R : Bool → Action → Action → Prop}
    (tracks : Tracks cat Buf R)
    (args probe targetList quals groupClause havingQual : List Expr) :
    SubPlanParts.AllFollow Buf R
      ⟨deparseExprs cat args, deparseExprs cat probe, deparseExprs cat targetList,
        deparseExprs cat quals,
        List.zipWith deparseSortGroupClause groupClause (deparseExprs cat groupClause),
        deparseExprs cat havingQual⟩
      ⟨correlatesList args, correlatesList probe, correlatesList targetList,
        correlatesList quals, correlatesList groupClause, correlatesList havingQual⟩ :=
  ⟨tracks_deparseExprs tracks args, tracks_deparseExprs tracks probe,
    tracks_deparseExprs tracks targetList, tracks_deparseExprs tracks quals,
    follows_sortGroupClauses tracks (tracks_deparseExprs tracks groupClause),
    tracks_deparseExprs tracks havingQual⟩

theorem speaks_deparseExpr {e : Expr} (worded : e.Worded) (own : context.buf = p)
    (growing : Growing p correlated context) : Swells p true (deparseExpr cat e context) := by
  have tracks := tracks_swells cat p
  have text (s : String) : Swells p true (appendText context.buf s) := own ▸ speaks_text s
  cases e with
  | Var node =>
      rw [deparseExpr]
      exact speaks_deparseVar node own
  | Param node =>
      rw [deparseExpr]
      exact speaks_deparseParam node own growing
  | node args unseen template =>
      rw [deparseExpr]
      obtain ⟨text, worded⟩ := worded
      exact speaks_appendTemplate
        (List.rel_append (tracks_deparseExprs tracks args) (tracks_deparseExprs tracks unseen))
        worded own growing
  | SubPlan info args probe targetList quals groupClause havingQual =>
      rw [deparseExpr]
      exact speaks_deparseSubPlan cat
        (parts_follow tracks args probe targetList quals groupClause havingQual) own growing
  | NOT arg =>
      have negated {emit : Emitter} (swells : Swells p false (emit context)) :
          Swells p true (deparseNot emit context) := by
        refine speaks_perform ?_ List.mem_cons_self (text "(NOT ")
        simp only [List.forall_mem_cons, List.not_mem_nil, IsEmpty.forall_iff, implies_true,
          and_true]
        exact ⟨(text _).forget, swells, (text _).forget⟩
      have swells := Swells.forget (tracks_deparseExpr tracks arg _ _ _ growing)
      cases arg with
      | SubPlan info args probe targetList quals groupClause havingQual =>
          have follow := parts_follow tracks args probe targetList quals groupClause havingQual
          rw [deparseExpr]
          by_cases guarded : info.subLinkType = .ANY ∧ info.guarded
          · simp only [if_pos guarded]
            exact speaks_deparseGuardedNotIn cat follow own growing
          · simp only [if_neg guarded]
            exact negated (speaks_deparseSubPlan cat follow own growing).forget
      | Var | Param | node | NOT =>
          rw [deparseExpr]
          · exact negated swells
          · nofun

end

/-! ## Contexts of a run -/

/-- The contexts of a deparse run whose buffers are below `n`: that of a SELECT and those of
subplans in it, each with its own buffer or, while an operand is captured, with another. -/
inductive Within (cat : Catalog) (n : Nat) : deparse_expr_cxt → Prop
  | outer (buf : Nat) (scanrel : RelOptInfo Expr) (has_inlined_subplan : Bool) : buf < n →
      Within cat n ⟨buf, scanrel, has_inlined_subplan, none, fun _ => none⟩
  | subplan {context : deparse_expr_cxt} (info : SubPlanInfo) (args : List Expr) (buf : Nat) :
      Within cat n context → (∀ arg ∈ args, arg.Worded) → buf < n →
        Within cat n { subcontext info (deparseExprs cat args) context with buf := buf }

section

variable {n : Nat} {context : deparse_expr_cxt}

theorem Within.buf_lt (within : Within cat n context) : context.buf < n := by
  cases within with
  | outer _ _ _ below => exact below
  | subplan _ _ _ _ _ below => exact below

theorem Within.mono {m : Nat} (within : Within cat n context) (more : n ≤ m) :
    Within cat m context := by
  induction within with
  | outer buf scanrel has_inlined_subplan below =>
      exact .outer buf scanrel has_inlined_subplan (Nat.lt_of_lt_of_le below more)
  | subplan info args buf _ worded below ih =>
      exact .subplan info args buf ih worded (Nat.lt_of_lt_of_le below more)

theorem Within.none (within : Within cat n context) (outer : context.subplan = none)
    (paramid : Nat) : context.correlation_arg paramid = none := by
  cases within with
  | outer => rfl
  | subplan => cases outer

theorem Within.growing (within : Within cat n context) (p : Nat) :
    ∃ correlated, Growing p correlated context := by
  induction within with
  | outer buf scanrel has_inlined_subplan _ =>
      exact ⟨fun _ => false, trivial, rfl, rfl, rfl, fun _ => .none, fun _ _ => rfl⟩
  | subplan info args buf _ _ _ ih =>
      obtain ⟨correlated, growing⟩ := ih
      exact ⟨_, (growing.sub info (tracks_deparseExprs (tracks_swells cat p) args)).into trivial⟩

/-- The correlation arguments of a context append to a buffer in use. -/
theorem Within.args_speak (within : Within cat n context) :
    ∃ p < n, ∀ paramid outer, context.correlation_arg paramid = some outer →
      Swells p true outer := by
  cases within with
  | outer buf _ _ below =>
      exact ⟨buf, below, fun _ _ arg => absurd arg (Option.some_ne_none _).symm⟩
  | @subplan parent info args buf around worded _ =>
      refine ⟨parent.buf, around.buf_lt, fun paramid outer arg => ?_⟩
      obtain ⟨correlated, growing⟩ := around.growing parent.buf
      obtain ⟨pair, found, rfl⟩ := Option.map_eq_some_iff.mp arg
      have member := (List.of_mem_zip (List.mem_of_find?_eq_some found)).2
      rw [deparseExprs_eq_map] at member
      obtain ⟨e, of, same⟩ := List.mem_map.mp member
      rw [← same]
      exact speaks_deparseExpr (worded e of) rfl growing

/-- A context fits a listing of what it prints. -/
theorem Within.fits (within : Within cat n context) :
    ∃ has_inlined_subplan around,
      Fits cat [] {b | b < n} context.scanrel has_inlined_subplan context around := by
  induction within with
  | outer buf scanrel has_inlined_subplan below =>
      exact ⟨has_inlined_subplan, .outer, below, rfl, rfl, fun _ => rfl, fun _ => .none⟩
  | subplan info args buf _ _ below ih =>
      obtain ⟨has_inlined_subplan, around, fits⟩ := ih
      have sub := fits.sub info (emits_deparseExprs args)
      exact ⟨has_inlined_subplan, _, below, sub.scan, sub.subplan, sub.inlined, sub.args⟩

end

/-! ## Capture -/

/-- What an emitter appends to the buffer of its context. -/
def Appends (emit : Emitter) (context : deparse_expr_cxt) (s : State) (tokens : List Token) :
    Prop :=
  (emit context s).bufs context.buf = s.bufs context.buf ++ tokens

/-- A captured text is what would have been appended, and no buffer in use is touched; so a
template appends the full text of each operand it captures. -/
structure Captures (cat : Catalog) (e : Expr) (context : deparse_expr_cxt) (s : State) :
    Prop where
  text : Appends (deparseExpr cat e) context s
    (deparseExprToString (deparseExpr cat e) context s).1
  params_list : (deparseExprToString (deparseExpr cat e) context s).2.params_list =
    (deparseExpr cat e context s).params_list
  kept : ∀ b < s.next, (deparseExprToString (deparseExpr cat e) context s).2.bufs b = s.bufs b
  spliced : ∀ args unseen template, e = .node args unseen template →
    ∀ k i operand, template.captures[k]? = some i → (args ++ unseen)[i]? = some operand →
      let operands := deparseExprs cat args ++ deparseExprs cat unseen
      ∃ tokens, (captureAll operands context template.captures s).1[k]? = some tokens ∧
        Appends (deparseExpr cat operand) context
          (captureAll operands context (template.captures.take k) s).2 tokens

section

variable {e : Expr} {context : deparse_expr_cxt} {s : State}

theorem Alike.mirrored (within : Within cat s.next context) :
    Alike (Twin context.buf s.next) (Mirrors context.buf s.next s.bufs) context.correlated
      context { context with buf := s.next } := by
  refine ⟨.inl ⟨rfl, rfl⟩, rfl, rfl, rfl, fun paramid => ?_, fun paramid unset => ?_⟩
  · simp only [deparse_expr_cxt.correlated]
    cases context.correlation_arg paramid with
    | none => exact .none
    | some outer => exact .some fun mark => Bool.noConfusion mark
  · have missing := unset.elim (fun outer => within.none outer paramid) id
    rw [deparse_expr_cxt.correlated, missing]
    rfl

/-- Where no correlation parameter is printed, appending and capturing are alike. -/
theorem mirror_deparseExpr (within : Within cat s.next context)
    (unused : ∀ b, s.next ≤ b → s.bufs b = []) (plain : e.correlates context.correlated = false) :
    Mirror context.buf s.next s.bufs (deparseExpr cat e context s)
      (deparseExprToString (deparseExpr cat e) context s).2 := by
  have tracks : Tracks cat (Twin context.buf s.next) (Mirrors context.buf s.next s.bufs) :=
    tracks_mirrors cat within.buf_lt
  refine tracks_deparseExpr tracks e _ _ _ (Alike.mirrored within) plain s
    { s with next := s.next + 1 } ⟨rfl, rfl, rfl, rfl, Nat.le_refl _, fun _ _ => rfl, ?_, ?_⟩
  · rw [unused s.next (Nat.le_refl _), List.append_nil]
  · intro b above
    rw [unused b above, unused (b + 1) (Nat.le_succ_of_le above)]

/-- The k-th captured text, and the state it is captured in. -/
theorem captureAll_getElem? (operands : List Emitter) (captures : List Nat) {k i : Nat}
    {emit : Emitter} (captured : captures[k]? = some i) (operand : operands[i]? = some emit)
    (s : State) :
    (captureAll operands context captures s).1[k]? = some (deparseExprToString emit context
      (captureAll operands context (captures.take k) s).2).1 := by
  induction captures generalizing k s with
  | nil => cases captured
  | cons head captures ih =>
      cases k with
      | zero =>
          cases captured
          simp only [captureAll, operand, List.take_zero]
          rfl
      | succ k =>
          simp only [captureAll, List.take_succ_cons, List.getElem?_cons_succ]
          exact ih captured _

theorem spliced_of_plain (within : Within cat s.next context) (numbered : Numbered cat s)
    {args unseen : List Expr} {template : Template}
    (plain : (Expr.node args unseen template).correlates context.correlated = false) {k i : Nat}
    {operand : Expr} (captured : template.captures[k]? = some i)
    (listed : (args ++ unseen)[i]? = some operand) :
    let operands := deparseExprs cat args ++ deparseExprs cat unseen
    ∃ tokens, (captureAll operands context template.captures s).1[k]? = some tokens ∧
      Appends (deparseExpr cat operand) context
        (captureAll operands context (template.captures.take k) s).2 tokens := by
  intro operands
  have emitter : operands[i]? = some (deparseExpr cat operand) := by
    simp only [operands, deparseExprs_eq_map, ← List.map_append, List.getElem?_map, listed,
      Option.map_some]
  refine ⟨_, captureAll_getElem? operands _ captured emitter s, ?_⟩
  -- the state the operand is captured in is one of the run
  obtain ⟨has_inlined_subplan, around, fits⟩ := within.fits
  have before := printing_captureAll
    (List.rel_append (emits_deparseExprs args) (emits_deparseExprs unseen)) fits
    (template.captures.take k) s List.nil_prefix (fun _ below => below) numbered
  have silent : operand.correlates context.correlated = false := by
    rw [Expr.correlates, Template.reads, Bool.or_eq_false_iff] at plain
    have unread := List.any_eq_false.mp plain.1 i (List.mem_of_getElem? captured)
    simpa [operandReads, correlatesList_eq_map, ← List.map_append, listed] using unread
  exact (mirror_deparseExpr (within.mono before.next) before.numbered.unused silent).text

/-- A captured text is complete exactly where no correlation parameter is printed. -/
theorem captures_iff (within : Within cat s.next context) (numbered : Numbered cat s)
    (returns : (deparseExprToString (deparseExpr cat e) context s).2.error = false) :
    Captures cat e context s ↔ e.correlates context.correlated = false := by
  constructor
  · intro captures
    by_contra correlates
    rw [Bool.not_eq_false] at correlates
    obtain ⟨p, below, speak⟩ := within.args_speak
    have growing : Growing p context.correlated { context with buf := s.next } := by
      refine ⟨trivial, rfl, rfl, rfl, fun paramid => ?_, fun paramid unset => ?_⟩
      · simp only [deparse_expr_cxt.correlated]
        cases arg : context.correlation_arg paramid with
        | none => exact .none
        | some outer => exact .some (speak paramid outer arg)
      · have missing := unset.elim (fun outer => within.none outer paramid) id
        rw [deparse_expr_cxt.correlated, missing]
        rfl
    have swells := tracks_deparseExpr (tracks_swells cat p) e _ _ _ growing
    have longer := (swells { s with next := s.next + 1 }).2.2 correlates returns
    have same := congrArg List.length (captures.kept p below)
    exact absurd same (Nat.ne_of_gt longer)
  · intro plain
    have mirror := mirror_deparseExpr within numbered.unused plain
    refine ⟨mirror.text, mirror.params_list, mirror.kept, ?_⟩
    rintro args unseen template rfl k i operand captured listed
    exact spliced_of_plain within numbered plain captured listed

end

section

/-- Columns are called `a`. -/
def plainCatalog : Catalog where
  deparse_type_name _ _ := ascii "Int32"
  column_name _ _ := ascii "a"
  ch_table_sign_field _ := []
  columns _ := [ascii "a"]

/-- The body of `EXISTS (SELECT 1 FROM u WHERE … )` over `t`, with `t.a` as its argument. -/
def bodyContext : deparse_expr_cxt :=
  subcontext ⟨1, .EXISTS, [0], [1], false, ⟨false, false⟩⟩
    (deparseExprs plainCatalog [.Var ⟨1, 1, 0, 23, -1, 0, []⟩])
    ⟨0, .base 1 (ascii "d") (ascii "t") [] [] [], true, none, fun _ => none⟩

theorem within_bodyContext : Within plainCatalog State.initial.next bodyContext := by
  refine .subplan _ [.Var ⟨1, 1, 0, 23, -1, 0, []⟩] 0 (.outer 0 _ _ (by decide)) ?_ (by decide)
  intro arg member
  rw [List.mem_singleton.mp member]
  trivial

/-- `x = ANY (arr)` in the guarded form, of a probe and an array. -/
def guardedAny (probe array : Expr) : Expr :=
  .node [probe, array] []
    ⟨[0, 1], [.text "(CASE WHEN ", .captured 0, .text " IS NULL AND notEmpty(", .captured 1,
      .text ") THEN NULL WHEN countEqual(", .captured 1, .text ", ", .captured 0,
      .text ") > 0 THEN true WHEN countEqual(", .captured 1,
      .text ", NULL) > 0 THEN NULL ELSE false END)"], by decide⟩

/-- Of columns of the body, `(CASE WHEN q1_1.a IS NULL AND notEmpty(q1_1.a) …`. -/
theorem captures_guardedAny :
    Captures plainCatalog
      (guardedAny (.Var ⟨1, 1, 0, 23, -1, 0, []⟩) (.Var ⟨1, 2, 0, 1007, -1, 0, []⟩))
      bodyContext State.initial :=
  (captures_iff within_bodyContext numbered_initial (by decide)).mpr (by decide)

/-- Of the correlation parameter, `r1.a(CASE WHEN () IS NULL AND notEmpty(q1_1.a) …`. -/
theorem not_captures_guardedAny :
    let probe : Expr := .Param ⟨.PARAM_EXEC, 0, 23, -1, 0⟩
    Within plainCatalog State.initial.next bodyContext ∧ Numbered plainCatalog .initial ∧
      (deparseExprToString (deparseExpr plainCatalog probe) bodyContext State.initial).1 =
        [.text "(", .text ")"] ∧
      ¬ Captures plainCatalog probe bodyContext State.initial ∧
      ¬ Captures plainCatalog (guardedAny probe (.Var ⟨1, 2, 0, 1007, -1, 0, []⟩)) bodyContext
        State.initial := by
  intro probe
  refine ⟨within_bodyContext, numbered_initial, by decide, fun captures => ?_,
    fun captures => ?_⟩
  · exact absurd (captures.kept 0 (by decide)) (by decide)
  · exact absurd (captures.kept 0 (by decide)) (by decide)

end

end PgClickhouse.Emit
