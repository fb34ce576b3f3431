import PgClickhouse.ContextText

/-!
# Grouped statements

A grouping expression is emitted in the GROUP BY clause and wherever else it occurs outside
aggregates: in the select list, in HAVING conditions and among the sort keys.  ClickHouse takes
an occurrence for grouped if its text is the one in the GROUP BY clause.

* `occurrence_infix`: every occurrence stands in the text of the statement.
* `grouped_alike_iff`: when all of them print alike.
-/

namespace PgClickhouse.Context

open Deparse Aggregate SelfDelimiting

/-! ## Clauses -/

/-- A statement over an upper relation. -/
structure GroupedStmt where
  tlist : List Expr
  groupClause : List Expr
  remote_conds : List Expr
  pathkeys : List Expr

/-- The flags in a condition. -/
def Flags.condition : Flags := { Flags.zero with truth_ctx := true }

/-- The flags of a grouping expression: the type of a constant is shown. -/
def groupFlags : Expr → Flags
  | .Const _ => { Flags.zero with showtype := true }
  | _ => Flags.zero

/-- Texts with a separator. -/
def separate (separator : Token) : List (List Token) → List Token
  | [] => []
  | [text] => text
  | text :: next :: texts => text ++ separator :: separate separator (next :: texts)

section

variable (root : PlannerInfo) (scanrel : ScanRel)

def deparseExplicitTargetList (tlist : List Expr) : List Token :=
  if tlist.isEmpty then [.word "NULL"]
  else separate .comma (tlist.map (deparseExpr root scanrel Flags.zero))

def deparseSortGroupClause (expr : Expr) : List Token :=
  match expr with
  | .Const node => deparseConst node false true
  | .Var node => deparseExpr root scanrel Flags.zero (.Var node)
  | expr => .lparen :: (deparseExpr root scanrel Flags.zero expr ++ [.rparen])

def appendGroupByClause (groupClause : List Expr) : List Token :=
  if groupClause.isEmpty then []
  else .word "GROUP BY" ::
    separate .comma (groupClause.map (deparseSortGroupClause root scanrel))

def appendConditions (exprs : List Expr) : List Token :=
  separate (.word "AND") (exprs.map fun expr =>
    .lparen :: (deparseExpr root scanrel Flags.condition expr ++ [.rparen]))

def deparseVectorDotProduct (left right : Expr) : List Token :=
  [Token.word "dotProduct", .lparen] ++ deparseExpr root scanrel Flags.zero left ++
    [Token.comma] ++ deparseExpr root scanrel Flags.zero right ++ [Token.rparen]

/-- A sort key, without its direction. -/
def deparsePathKey : Expr → List Token
  | .neg_ip left right => deparseVectorDotProduct root scanrel left right
  | expr => deparseExpr root scanrel Flags.zero expr

def appendOrderByClause (pathkeys : List Expr) : List Token :=
  .word "ORDER BY" :: separate .comma (pathkeys.map (deparsePathKey root scanrel))

/-- The clauses of a grouped statement around its FROM clause. -/
def deparseGroupedStmt (stmt : GroupedStmt) (from_ : List Token) : List Token :=
  .word "SELECT" :: (deparseExplicitTargetList root scanrel stmt.tlist ++ from_ ++
    appendGroupByClause root scanrel stmt.groupClause ++
    (if stmt.remote_conds.isEmpty then []
      else .word "HAVING" :: appendConditions root scanrel stmt.remote_conds) ++
    (if stmt.pathkeys.isEmpty then [] else appendOrderByClause root scanrel stmt.pathkeys))

/-! ## Occurrences -/

/-- An expression and its parts outside aggregates, with their flags. -/
def places (flags : Flags) (expr : Expr) : List (Expr × Option Flags) :=
  (expr, some flags) :: expr.within root scanrel flags

/-- What is printed of them. -/
def printed (flags : Flags) (expr : Expr) : List (Expr × List Token) :=
  (places root scanrel flags expr).filterMap fun (e, at_) =>
    at_.map fun flags => (e, deparseExpr root scanrel flags e)

def printedKey : Expr → List (Expr × List Token)
  | .neg_ip left right =>
      (.neg_ip left right, deparseVectorDotProduct root scanrel left right) ::
        (printed root scanrel Flags.zero left ++ printed root scanrel Flags.zero right)
  | expr => printed root scanrel Flags.zero expr

/-- The occurrences of expressions outside aggregates and the GROUP BY clause, with their
texts. -/
def GroupedStmt.occurrences (stmt : GroupedStmt) : List (Expr × List Token) :=
  stmt.tlist.flatMap (printed root scanrel Flags.zero) ++
    stmt.remote_conds.flatMap (printed root scanrel Flags.condition) ++
    stmt.pathkeys.flatMap (printedKey root scanrel)

end

/-! ### Where they stand -/

section

variable {root : PlannerInfo} {scanrel : ScanRel}

theorem infix_flatMap {α β : Type} (f : α → List β) {a : α} {l : List α} (mem : a ∈ l) :
    f a <:+: l.flatMap f := by
  obtain ⟨front, back, rfl⟩ := List.append_of_mem mem
  rw [List.flatMap_append, List.flatMap_cons, ← List.append_assoc]
  exact ⟨front.flatMap f, back.flatMap f, rfl⟩

theorem infix_separate {separator : Token} {text : List Token} {texts : List (List Token)}
    (mem : text ∈ texts) : text <:+: separate separator texts := by
  fun_induction separate separator texts with
  | case1 => cases mem
  | case2 only =>
      rw [List.mem_singleton.mp mem]
  | case3 first next texts ih =>
      rcases List.mem_cons.mp mem with rfl | mem
      · exact (List.prefix_append _ _).isInfix
      · exact (ih mem).trans (((List.suffix_cons _ _).trans (List.suffix_append _ _)).isInfix)

/-- An expression or a part of it. -/
theorem infix_of_places {flags flags' : Flags} {e expr : Expr}
    (within : (e, some flags') ∈ expr.within root scanrel flags →
      deparseExpr root scanrel flags' e <:+: deparseExpr root scanrel flags expr)
    (mem : (e, some flags') ∈ places root scanrel flags expr) :
    deparseExpr root scanrel flags' e <:+: deparseExpr root scanrel flags expr := by
  rcases List.mem_cons.mp mem with same | mem
  · cases same
    exact List.infix_rfl
  · exact within mem

theorem infix_middle {α : Type} (front middle back : List α) :
    middle <:+: front ++ middle ++ back := ⟨front, back, rfl⟩

mutual

/-- A part that is printed stands in the text. -/
theorem infix_of_within {flags flags' : Flags} {e : Expr} : ∀ expr : Expr,
    (e, some flags') ∈ expr.within root scanrel flags →
      deparseExpr root scanrel flags' e <:+: deparseExpr root scanrel flags expr
  | .Var _ => nofun
  | .Const _ => nofun
  | .Param _ => nofun
  | .RelabelType arg => by
      rw [Expr.within, deparseExpr]
      exact infix_of_places (infix_of_within arg)
  | .CoerceViaIOExpr none arg => by
      rw [Expr.within, deparseExpr]
      exact infix_of_places (infix_of_within arg)
  | .CoerceViaIOExpr (some typename) arg => by
      rw [Expr.within, deparseExpr]
      intro mem
      refine (infix_of_places (infix_of_within arg) mem).trans ?_
      exact (infix_middle _ _ _).trans (List.prefix_append _ _).isInfix
  | .concat left right => by
      rw [Expr.within, deparseExpr]
      intro mem
      rcases List.mem_append.mp mem with mem | mem
      · exact (infix_of_places (infix_of_within left) mem).trans (infix_middle _ _ _)
      · rcases unit : spanUnit flags right with _ | u
        · rw [unit, if_neg (by decide)] at mem
          refine (infix_of_places (infix_of_within right) mem).trans ?_
          exact (infix_middle _ _ _).trans (List.suffix_append _ _).isInfix
        · rw [unit, if_pos Option.isSome_some] at mem
          cases List.mem_singleton.mp mem
  | .neg_ip left right => by
      rw [Expr.within, deparseExpr]
      intro mem
      rcases List.mem_append.mp mem with mem | mem
      · refine (infix_of_places (infix_of_within left) mem).trans ?_
        exact ((infix_middle _ _ _).trans (List.prefix_append _ _).isInfix).trans
          (List.prefix_append _ _).isInfix
      · exact (infix_of_places (infix_of_within right) mem).trans (infix_middle _ _ _)
  | .timezone zone source => by
      rw [Expr.within, deparseExpr]
      intro mem
      rcases List.mem_append.mp mem with mem | mem
      · exact (infix_of_places (infix_of_within zone) mem).trans (infix_middle _ _ _)
      · refine (infix_of_places (infix_of_within source) mem).trans ?_
        exact ((infix_middle _ _ _).trans (List.prefix_append _ _).isInfix).trans
          (List.prefix_append _ _).isInfix
  | .ScalarArrayOpExpr op useOr arg1 arg2 => by
      rw [Expr.within, deparseExpr]
      intro mem
      obtain ⟨slot1, slot2⟩ := arg_mem_saopTemplate op useOr
        (saopForm root scanrel flags.truth_ctx op useOr arg1 arg2)
      rcases List.mem_append.mp mem with mem | mem
      · exact (infix_of_places (infix_of_within arg1) mem).trans
          (infix_flatMap (Slot.fill _ _) slot1)
      · exact (infix_of_places (infix_of_within arg2) mem).trans
          (infix_flatMap (Slot.fill _ _) slot2)
  | .Aggref .. => nofun
  | .node tag parts => by
      rw [Expr.within, deparseExpr]
      split
      · exact nofun
      · exact infix_of_part parts

theorem infix_of_part {flags flags' : Flags} {e : Expr} : ∀ parts : Parts,
    (e, some flags') ∈ parts.within root scanrel flags →
      deparseExpr root scanrel flags' e <:+: deparseParts root scanrel flags parts
  | .last _ => nofun
  | .lexeme token rest => by
      rw [Parts.within, deparseParts]
      exact fun mem => (infix_of_part rest mem).trans (List.suffix_cons _ _).isInfix
  | .child pass arg rest => by
      rw [Parts.within, deparseParts]
      intro mem
      rcases List.mem_append.mp mem with mem | mem
      · exact (infix_of_places (infix_of_within arg) mem).trans (List.prefix_append _ _).isInfix
      · exact (infix_of_part rest mem).trans (List.suffix_append _ _).isInfix
  | .unseen arg rest => by
      rw [Parts.within, deparseParts]
      intro mem
      rcases List.mem_cons.mp mem with same | mem
      · cases same
      · exact infix_of_part rest mem

end

theorem mem_printed {flags : Flags} {expr e : Expr} {text : List Token} :
    (e, text) ∈ printed root scanrel flags expr ↔
      ∃ flags', (e, some flags') ∈ places root scanrel flags expr ∧
        deparseExpr root scanrel flags' e = text := by
  unfold printed
  rw [List.mem_filterMap]
  constructor
  · rintro ⟨⟨e', at_⟩, mem, same⟩
    rcases at_ with _ | flags'
    · cases same
    · cases same
      exact ⟨flags', mem, rfl⟩
  · rintro ⟨flags', mem, rfl⟩
    exact ⟨(e, some flags'), mem, rfl⟩

theorem infix_of_printed {flags : Flags} {expr e : Expr} {text : List Token}
    (mem : (e, text) ∈ printed root scanrel flags expr) :
    text <:+: deparseExpr root scanrel flags expr := by
  obtain ⟨flags', place, rfl⟩ := mem_printed.mp mem
  exact infix_of_places (infix_of_within expr) place

theorem infix_of_printedKey {key e : Expr} {text : List Token}
    (mem : (e, text) ∈ printedKey root scanrel key) :
    text <:+: deparsePathKey root scanrel key := by
  unfold printedKey at mem
  split at mem
  · rename_i left right
    rw [deparsePathKey, deparseVectorDotProduct]
    rcases List.mem_cons.mp mem with same | mem
    · cases same
      exact List.infix_rfl
    · rcases List.mem_append.mp mem with mem | mem
      · exact ((infix_of_printed mem).trans (infix_middle _ _ _)).trans
          ((List.prefix_append _ _).isInfix.trans (List.prefix_append _ _).isInfix)
      · exact (infix_of_printed mem).trans (infix_middle _ _ _)
  · rename_i other
    rw [deparsePathKey.eq_2 root scanrel key other]
    exact infix_of_printed mem

theorem infix_of_target {tlist : List Expr} {target : Expr} (mem : target ∈ tlist) :
    deparseExpr root scanrel Flags.zero target <:+:
      deparseExplicitTargetList root scanrel tlist := by
  have some_ : ¬tlist.isEmpty = true := by
    rw [List.isEmpty_iff]
    exact List.ne_nil_of_mem mem
  rw [deparseExplicitTargetList, if_neg some_]
  exact infix_separate (List.mem_map_of_mem mem)

theorem infix_of_condition {exprs : List Expr} {expr : Expr} (mem : expr ∈ exprs) :
    deparseExpr root scanrel Flags.condition expr <:+: appendConditions root scanrel exprs := by
  refine List.IsInfix.trans ?_ (infix_separate (List.mem_map_of_mem mem))
  exact (List.prefix_append _ _).isInfix.trans (List.suffix_cons _ _).isInfix

theorem infix_of_key {pathkeys : List Expr} {key : Expr} (mem : key ∈ pathkeys) :
    deparsePathKey root scanrel key <:+: appendOrderByClause root scanrel pathkeys :=
  (infix_separate (List.mem_map_of_mem mem)).trans (List.suffix_cons _ _).isInfix

/-- Every occurrence stands in the text of the statement. -/
theorem occurrence_infix {stmt : GroupedStmt} {e : Expr} {text : List Token}
    (mem : (e, text) ∈ stmt.occurrences root scanrel) (from_ : List Token) :
    text <:+: deparseGroupedStmt root scanrel stmt from_ := by
  unfold GroupedStmt.occurrences at mem
  rw [deparseGroupedStmt]
  refine List.IsInfix.trans ?_ (List.suffix_cons _ _).isInfix
  rw [List.mem_append, List.mem_append, List.mem_flatMap, List.mem_flatMap,
    List.mem_flatMap] at mem
  rcases mem with (⟨target, target_mem, mem⟩ | ⟨cond, cond_mem, mem⟩) | ⟨key, key_mem, mem⟩
  · refine ((infix_of_printed mem).trans (infix_of_target target_mem)).trans ?_
    rw [List.append_assoc, List.append_assoc, List.append_assoc]
    exact (List.prefix_append _ _).isInfix
  · have conds : ¬stmt.remote_conds.isEmpty = true := by
      rw [List.isEmpty_iff]
      exact List.ne_nil_of_mem cond_mem
    refine ((infix_of_printed mem).trans (infix_of_condition cond_mem)).trans ?_
    rw [if_neg conds]
    exact (List.suffix_cons _ _).isInfix.trans (infix_middle _ _ _)
  · have keys : ¬stmt.pathkeys.isEmpty = true := by
      rw [List.isEmpty_iff]
      exact List.ne_nil_of_mem key_mem
    refine ((infix_of_printedKey mem).trans (infix_of_key key_mem)).trans ?_
    rw [if_neg keys]
    exact (List.suffix_append _ _).isInfix

end

/-! ## Alike -/

/-- Equal up to one enclosing pair of parentheses. -/
def UpToParens (text text' : List Token) : Prop :=
  text = text' ∨ .lparen :: (text ++ [.rparen]) = text' ∨ text = .lparen :: (text' ++ [.rparen])

section

variable (root : PlannerInfo) (scanrel : ScanRel)

/-- Every occurrence of a grouping expression has the text it has in the GROUP BY clause, up to
one enclosing pair of parentheses. -/
def GroupedStmt.PrintedAlike (stmt : GroupedStmt) : Prop :=
  ∀ group ∈ stmt.groupClause, ∀ text, (group, text) ∈ stmt.occurrences root scanrel →
    UpToParens text (deparseSortGroupClause root scanrel group)

def keyPlaces : Expr → List (Expr × Option Flags)
  | .neg_ip left right =>
      places root scanrel Flags.zero left ++ places root scanrel Flags.zero right
  | key => places root scanrel Flags.zero key

/-- The places of a statement outside aggregates and the GROUP BY clause. -/
def GroupedStmt.places (stmt : GroupedStmt) : List (Expr × Option Flags) :=
  stmt.tlist.flatMap (Context.places root scanrel Flags.zero) ++
    stmt.remote_conds.flatMap (Context.places root scanrel Flags.condition) ++
    stmt.pathkeys.flatMap (keyPlaces root scanrel)

/-- No grouping expression is a sort key that is turned into a plain `dotProduct`, and
wherever one is emitted, its nodes are decided as in the GROUP BY clause. -/
structure GroupedStmt.DecidedAlike (stmt : GroupedStmt) : Prop where
  keys : ∀ left right, .neg_ip left right ∈ stmt.pathkeys →
    .neg_ip left right ∉ stmt.groupClause
  places : ∀ group ∈ stmt.groupClause, ∀ flags, (group, some flags) ∈ stmt.places root scanrel →
    group.Same root scanrel scanrel flags (groupFlags group)

variable {root scanrel}

theorem deparseSortGroupClause_cases (group : Expr) :
    deparseSortGroupClause root scanrel group =
        deparseExpr root scanrel (groupFlags group) group ∨
      deparseSortGroupClause root scanrel group =
        .lparen :: (deparseExpr root scanrel (groupFlags group) group ++ [.rparen]) := by
  unfold deparseSortGroupClause groupFlags
  split
  · rw [deparseExpr]
    exact .inl rfl
  · exact .inl rfl
  · rename_i constant variable_
    refine .inr ?_
    split
    · exact absurd rfl (constant _)
    · rfl

/-- Parentheses around one text of an expression do not give another. -/
theorem parens_ne (flags flags' : Flags) (expr : Expr) :
    .lparen :: (deparseExpr root scanrel flags expr ++ [.rparen]) ≠
      deparseExpr root scanrel flags' expr := by
  have opens : ∀ t ∈ [Token.lparen], t.Opening := by decide
  have differ := unshifted_expr root scanrel flags flags' expr [.lparen] (List.cons_ne_nil _ _)
    opens [.rparen] []
  rw [List.append_nil] at differ
  exact differ

theorem parens_parens_ne (flags flags' : Flags) (expr : Expr) :
    .lparen :: (.lparen :: (deparseExpr root scanrel flags expr ++ [.rparen]) ++ [.rparen]) ≠
      deparseExpr root scanrel flags' expr := by
  have opens : ∀ t ∈ [Token.lparen, .lparen], t.Opening := by decide
  have differ := unshifted_expr root scanrel flags flags' expr [.lparen, .lparen]
    (List.cons_ne_nil _ _) opens [.rparen, .rparen] []
  rw [List.append_nil] at differ
  intro same
  refine differ ?_
  rw [← same]
  simp

theorem upToParens_iff (flags : Flags) (group : Expr) :
    UpToParens (deparseExpr root scanrel flags group) (deparseSortGroupClause root scanrel group) ↔
      group.Same root scanrel scanrel flags (groupFlags group) := by
  rw [← (tells_deparseExpr root scanrel scanrel (.inl rfl) group).eq_iff]
  unfold UpToParens
  rcases deparseSortGroupClause_cases group with clause | clause
  · rw [clause, or_iff_left]
    rintro (same | same)
    · exact parens_ne _ _ _ same
    · exact parens_ne _ _ _ same.symm
  · rw [clause, or_iff_right (fun same => parens_ne _ _ _ same.symm), or_iff_left]
    · constructor
      · exact fun same => List.append_cancel_right (List.cons.inj same).2
      · exact fun same => by rw [same]
    · exact fun same => parens_parens_ne _ _ _ same.symm

theorem dotProduct_ne (left right : Expr) :
    ¬UpToParens (deparseVectorDotProduct root scanrel left right)
      (deparseSortGroupClause root scanrel (.neg_ip left right)) := by
  rw [deparseSortGroupClause, deparseVectorDotProduct, deparseExpr]
  · rintro (same | same | same)
    · exact absurd (List.cons.inj same).1 nofun
    · exact absurd (List.cons.inj (List.cons.inj same).2).1 nofun
    · exact absurd (List.cons.inj same).1 nofun
  · exact nofun
  · exact nofun

theorem mem_printedKey {key e : Expr} {text : List Token} :
    (e, text) ∈ printedKey root scanrel key ↔
      (∃ flags, (e, some flags) ∈ keyPlaces root scanrel key ∧
        deparseExpr root scanrel flags e = text) ∨
      ∃ left right, key = .neg_ip left right ∧ e = .neg_ip left right ∧
        text = deparseVectorDotProduct root scanrel left right := by
  unfold printedKey keyPlaces
  split
  · rename_i left right
    rw [List.mem_cons, List.mem_append, mem_printed, mem_printed]
    constructor
    · rintro (same | ⟨flags, place, text⟩ | ⟨flags, place, text⟩)
      · cases same
        exact .inr ⟨left, right, rfl, rfl, rfl⟩
      · exact .inl ⟨flags, List.mem_append_left _ place, text⟩
      · exact .inl ⟨flags, List.mem_append_right _ place, text⟩
    · rintro (⟨flags, place, text⟩ | ⟨left', right', same, rfl, rfl⟩)
      · rcases List.mem_append.mp place with place | place
        · exact .inr (.inl ⟨flags, place, text⟩)
        · exact .inr (.inr ⟨flags, place, text⟩)
      · cases same
        exact .inl rfl
  · rename_i other
    rw [mem_printed, or_iff_left]
    rintro ⟨left, right, same, -⟩
    exact other left right same

theorem mem_flatMap_printed {flags : Flags} {exprs : List Expr} {e : Expr} {text : List Token} :
    (e, text) ∈ exprs.flatMap (printed root scanrel flags) ↔
      ∃ flags', (e, some flags') ∈ exprs.flatMap (places root scanrel flags) ∧
        deparseExpr root scanrel flags' e = text := by
  simp only [List.mem_flatMap, mem_printed]
  constructor
  · rintro ⟨expr, mem, flags', place, text⟩
    exact ⟨flags', ⟨expr, mem, place⟩, text⟩
  · rintro ⟨flags', ⟨expr, mem, place⟩, text⟩
    exact ⟨expr, mem, flags', place, text⟩

theorem mem_occurrences {stmt : GroupedStmt} {e : Expr} {text : List Token} :
    (e, text) ∈ stmt.occurrences root scanrel ↔
      (∃ flags, (e, some flags) ∈ stmt.places root scanrel ∧
        deparseExpr root scanrel flags e = text) ∨
      ∃ left right, .neg_ip left right ∈ stmt.pathkeys ∧ e = .neg_ip left right ∧
        text = deparseVectorDotProduct root scanrel left right := by
  unfold GroupedStmt.occurrences GroupedStmt.places
  rw [List.mem_append, List.mem_append, mem_flatMap_printed, mem_flatMap_printed]
  constructor
  · rintro ((⟨flags, place, text⟩ | ⟨flags, place, text⟩) | printed)
    · exact .inl ⟨flags, List.mem_append_left _ (List.mem_append_left _ place), text⟩
    · exact .inl ⟨flags, List.mem_append_left _ (List.mem_append_right _ place), text⟩
    · obtain ⟨key, mem, printed⟩ := List.mem_flatMap.mp printed
      rcases mem_printedKey.mp printed with ⟨flags, place, text⟩ | ⟨left, right, rfl, same, text⟩
      · exact .inl ⟨flags, List.mem_append_right _ (List.mem_flatMap.mpr ⟨key, mem, place⟩), text⟩
      · exact .inr ⟨left, right, mem, same, text⟩
  · rintro (⟨flags, place, text⟩ | ⟨left, right, mem, same, text⟩)
    · rcases List.mem_append.mp place with place | place
      · rcases List.mem_append.mp place with place | place
        · exact .inl (.inl ⟨flags, place, text⟩)
        · exact .inl (.inr ⟨flags, place, text⟩)
      · obtain ⟨key, mem, place⟩ := List.mem_flatMap.mp place
        exact .inr (List.mem_flatMap.mpr
          ⟨key, mem, mem_printedKey.mpr (.inl ⟨flags, place, text⟩)⟩)
    · exact .inr (List.mem_flatMap.mpr
        ⟨_, mem, mem_printedKey.mpr (.inr ⟨left, right, rfl, same, text⟩)⟩)

/-- A grouped statement prints its grouping expressions alike exactly if it decides them
alike. -/
theorem grouped_alike_iff (stmt : GroupedStmt) :
    stmt.PrintedAlike root scanrel ↔ stmt.DecidedAlike root scanrel := by
  constructor
  · intro alike
    refine ⟨fun left right key mem => ?_, fun group mem flags place => ?_⟩
    · exact dotProduct_ne left right
        (alike _ mem _ (mem_occurrences.mpr (.inr ⟨left, right, key, rfl, rfl⟩)))
    · exact (upToParens_iff flags group).mp
        (alike group mem _ (mem_occurrences.mpr (.inl ⟨flags, place, rfl⟩)))
  · intro alike group mem text occurrence
    rcases mem_occurrences.mp occurrence with ⟨flags, place, rfl⟩ | ⟨left, right, key, rfl, rfl⟩
    · exact (upToParens_iff flags group).mpr (alike.places group mem flags place)
    · exact absurd mem (alike.keys left right key)

end

/-! ### A list with a NULL -/

/-- One table with a nullable column `a`. -/
def oneTable : PlannerInfo where
  pg := ⟨180000, fun _ _ => some false⟩
  rtable := [⟨.RTE_RELATION, 1, .INNER⟩]
  column_name _ := ascii "a"
  aggregatefunction _ := false

def oneScan : ScanRel := ⟨[1], ⟨.CH_DEFAULT, []⟩⟩

/-- `a IN (1, NULL)`. -/
def inList : Expr :=
  .ScalarArrayOpExpr .eq true (.Var ⟨1, 1, 0, []⟩)
    (.Const ⟨false, ascii "[1,NULL]", ascii "(1,NULL)", ascii "Array(Int32)", none, none, none,
      some (.elements true)⟩)

theorem count_starred : true = true → AggFn.count = .count ∧ false = false :=
  fun _ => ⟨rfl, rfl⟩

/-- `count(*)`. -/
def countRows : Expr :=
  .Aggref ⟨.count, .AGGSPLIT_SIMPLE, false, false, true, count_starred⟩ .nil .nil

/-- `count(*) > 5`. -/
def countBig : Expr :=
  .node .other (.lexeme .lparen (.child .exact countRows (.lexeme (.word ">")
    (.child .exact (.Const ⟨false, ascii "5", ascii "5", ascii "Int64", none, none, none, none⟩)
      (.last .rparen)))))

/-- `SELECT a IN (1, NULL), count(*) FROM t GROUP BY 1 HAVING a IN (1, NULL) OR count(*) > 5`. -/
def inListStmt : GroupedStmt where
  tlist := [inList, countRows]
  groupClause := [inList]
  remote_conds := [deparseBoolExpr .OR_EXPR [inList, countBig]]
  pathkeys := []

/-- The condition has the native form, and the GROUP BY clause does not. -/
theorem not_printed_alike :
    deparseExpr oneTable oneScan (Pass.keep.flags Flags.condition) inList =
        [.lparen, .column 1 (ascii "a"), .word "IN", .literal (ascii "(1,NULL)"), .rparen] ∧
      ¬∀ (root : PlannerInfo) (scanrel : ScanRel) (stmt : GroupedStmt),
        stmt.PrintedAlike root scanrel := by
  refine ⟨by decide +kernel, fun alike => ?_⟩
  have place : (inList, some (Pass.keep.flags Flags.condition)) ∈
      inListStmt.places oneTable oneScan := by
    refine List.mem_append_left _ (List.mem_append_right _ (List.mem_flatMap.mpr ?_))
    exact ⟨_, List.mem_singleton_self _, List.mem_cons_of_mem _ List.mem_cons_self⟩
  have same := (upToParens_iff _ inList).mp (alike oneTable oneScan inListStmt inList
    (List.mem_singleton_self _) _ (mem_occurrences.mpr (.inl ⟨_, place, rfl⟩)))
  have forms : saopForm oneTable oneScan true .eq true (.Var ⟨1, 1, 0, []⟩)
      (.Const ⟨false, ascii "[1,NULL]", ascii "(1,NULL)", ascii "Array(Int32)", none, none, none,
        some (.elements true)⟩) ≠
    saopForm oneTable oneScan false .eq true (.Var ⟨1, 1, 0, []⟩)
      (.Const ⟨false, ascii "[1,NULL]", ascii "(1,NULL)", ascii "Array(Int32)", none, none, none,
        some (.elements true)⟩) := by decide +kernel
  exact forms same.1

/-- `CASE WHEN a IN (1, NULL) THEN 5 END`: the condition of a CASE has the native form too. -/
example : deparseExpr oneTable oneScan Flags.zero
    (deparseCaseExpr none none
      [(inList, .Const ⟨false, ascii "5", ascii "5", ascii "Int64", none, none, none, none⟩)]
      none) =
    [.CASE, .WHEN, .lparen, .column 1 (ascii "a"), .word "IN", .literal (ascii "(1,NULL)"),
      .rparen, .word "THEN", .literal (ascii "5"), .word "END"] := by
  decide +kernel

end PgClickhouse.Context
