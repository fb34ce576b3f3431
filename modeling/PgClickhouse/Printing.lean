import Mathlib.Data.List.Forall2
import Mathlib.Data.Set.Insert
import Mathlib.Order.BooleanAlgebra.Set
import PgClickhouse.Occurrences

/-!
# What printing leaves

Whatever is printed, in whichever order and through whichever buffers, the buffers that end
up in the statement show exactly what `Expr.printed` and `SelectStmt.printouts` list, and
`params_list` holds exactly the parameters among it, each with placeholders of its number.

Main facts:

* `Prints` : what an action leaves, composed by `Prints.comp`, `Prints.perform`
* `emits_deparseExpr` : every expression prints what `Expr.printed` lists
* `printing_statement` : and a statement what `SelectStmt.printouts` lists
-/

namespace PgClickhouse.Emit

variable {cat : Catalog}

/-! ## Sightings -/

/-- What a token shows; of a placeholder, for which node it was printed. -/
inductive Sighting
  | column (path : Path) (qualifier : Option Alias) (name : ColumnName) (column : ColumnId)
  | entry (path : Path) (entry : FromEntry)
  | placeholder (node : ParamExpr)
  deriving Repr, DecidableEq

def Token.sighting : Token → Option Sighting
  | .text _ => none
  | .placeholder _ _ node => some (.placeholder node)
  | .column path qualifier name col => some (.column path qualifier name col)
  | .entry path from_ => some (.entry path from_)

def sightings (tokens : List Token) : Set Sighting :=
  {x | ∃ token ∈ tokens, token.sighting = some x}

/-- What is to be seen in the buffers of `L`. -/
def Seen (L : Set Nat) (s : State) : Set Sighting :=
  {x | ∃ b ∈ L, x ∈ sightings (s.bufs b)}

/-- How a leaf shows inside the SELECTs of `path`, over `scanrel`. -/
def Occurrence.sighting (cat : Catalog) (scanrel : RelOptInfo Expr) (has_inlined_subplan : Bool)
    (path : Path) (o : Occurrence) : Option Sighting :=
  let path := path ++ o.bodies.map subPlanEntries
  match o.leaf with
  | .entry entry => some (.entry path entry)
  | .fetched relid attno =>
      some (.column path none (.named (cat.column_name (.outer relid) attno))
        (.column (.outer relid) attno))
  | .sign =>
    match scanrel with
    | .base relid .. =>
        some (.column path none (.named (cat.ch_table_sign_field (.outer relid)))
          (.sign (.outer relid)))
    | .join .. => none
  | .Param node => some (.placeholder (.Param node))
  | .Var node =>
    match o.subplan with
    | some subplan =>
        let rte := .inner subplan.plan_id node.varno
        some (.column path (some (.subplan subplan.plan_id node.varno))
          (.named (cat.column_name rte node.varattno)) (.column rte node.varattno))
    | none =>
      match is_subquery_var node scanrel with
      | some (some (relno, colno)) =>
          some (.column path (some (.subquery relno)) (.nth colno)
            (.column (.outer node.varno) node.varattno))
      | some none => none
      | none =>
        if node.varno ∈ scanrel.relids ∧ node.varlevelsup = 0 then
          some (.column path (if useAlias scanrel has_inlined_subplan then some (.rel node.varno)
              else none) (.named (cat.column_name (.outer node.varno) node.varattno))
            (.column (.outer node.varno) node.varattno))
        else some (.placeholder (.Var node))

def sights (cat : Catalog) (scanrel : RelOptInfo Expr) (has_inlined_subplan : Bool)
    (printed : List Occurrence) (path : Path) : Set Sighting :=
  {x | ∃ o ∈ printed, o.sighting cat scanrel has_inlined_subplan path = some x}

def Printout.sights (cat : Catalog) (printout : Printout) : Set Sighting :=
  Emit.sights cat printout.scanrel printout.has_inlined_subplan printout.printed printout.path

def printoutSights (cat : Catalog) (printouts : List Printout) : Set Sighting :=
  {x | ∃ printout ∈ printouts, x ∈ printout.sights cat}

@[simp]
theorem sightings_nil : sightings [] = ∅ := by
  simp [sightings]

theorem sightings_append (a b : List Token) :
    sightings (a ++ b) = sightings a ∪ sightings b := by
  ext x
  simp [sightings, or_and_right, exists_or]

theorem seen_union (L L' : Set Nat) (s : State) :
    Seen (L ∪ L') s = Seen L s ∪ Seen L' s := by
  ext x
  simp [Seen, or_and_right, exists_or]

theorem sightings_singleton (token : Token) :
    sightings [token] = {x | token.sighting = some x} := by
  simp [sightings]

section

variable {scanrel : RelOptInfo Expr} {has_inlined_subplan : Bool}

@[simp]
theorem sights_nil (path : Path) : sights cat scanrel has_inlined_subplan [] path = ∅ := by
  simp [sights]

theorem sights_append (a b : List Occurrence) (path : Path) :
    sights cat scanrel has_inlined_subplan (a ++ b) path =
      sights cat scanrel has_inlined_subplan a path ∪
        sights cat scanrel has_inlined_subplan b path := by
  ext x
  simp [sights, or_and_right, exists_or]

theorem sights_flatMap {α : Type} (items : List α) (printed : α → List Occurrence)
    (path : Path) :
    sights cat scanrel has_inlined_subplan (items.flatMap printed) path =
      {x | ∃ i ∈ items, x ∈ sights cat scanrel has_inlined_subplan (printed i) path} := by
  ext x
  simp only [sights, List.mem_flatMap, Set.mem_ofPred_eq]
  constructor
  · rintro ⟨o, ⟨i, item, member⟩, shows⟩
    exact ⟨i, item, o, member, shows⟩
  · rintro ⟨i, item, o, member, shows⟩
    exact ⟨o, ⟨i, item, member⟩, shows⟩

theorem sights_singleton {o : Occurrence} {path : Path} {x : Sighting}
    (shows : o.sighting cat scanrel has_inlined_subplan path = some x) :
    sights cat scanrel has_inlined_subplan [o] path = {x} := by
  ext y
  simp [sights, shows, eq_comm]

/-- In the body of a subplan the FROM list of the subplan is around. -/
theorem sights_within (info : SubPlanInfo) (printed : List Occurrence) (path : Path) :
    sights cat scanrel has_inlined_subplan (printed.map (Occurrence.within info)) path =
      sights cat scanrel has_inlined_subplan printed (path ++ [subPlanEntries info]) := by
  ext x
  simp [sights, Occurrence.sighting, Occurrence.within]

end

/-! ## Numbers -/

/-- The placeholders among some pieces of text refer to the entries they were printed
for. -/
def Refers (cat : Catalog) (params_list : List ParamExpr) (tokens : List Token) : Prop :=
  ∀ n type node, Token.placeholder n type node ∈ tokens →
    0 < n ∧ params_list[n - 1]? = some node ∧ type = node.remote_type cat

structure Numbered (cat : Catalog) (s : State) : Prop where
  nodup : s.params_list.Nodup
  refers : ∀ b, Refers cat s.params_list (s.bufs b)
  unused : ∀ b, s.next ≤ b → s.bufs b = []

theorem Refers.mono {before params_list : List ParamExpr} {tokens : List Token}
    (refers : Refers cat before tokens) (longer : before <+: params_list) :
    Refers cat params_list tokens := by
  intro n type node member
  obtain ⟨positive, entry, typed⟩ := refers n type node member
  obtain ⟨rest, rfl⟩ := longer
  obtain ⟨below, -⟩ := List.getElem?_eq_some_iff.mp entry
  exact ⟨positive, (List.getElem?_append_left below).trans entry, typed⟩

theorem Refers.append {params_list : List ParamExpr} {a b : List Token}
    (left : Refers cat params_list a) (right : Refers cat params_list b) :
    Refers cat params_list (a ++ b) := by
  intro n type node member
  rcases List.mem_append.mp member with member | member
  · exact left n type node member
  · exact right n type node member

/-- What a placeholder was printed for stands in the list. -/
theorem Refers.mem {params_list : List ParamExpr} {tokens : List Token}
    (refers : Refers cat params_list tokens) {node : ParamExpr}
    (shown : Sighting.placeholder node ∈ sightings tokens) : node ∈ params_list := by
  obtain ⟨token, member, shows⟩ := shown
  cases token with
  | text text => cases shows
  | placeholder n type node' =>
      cases shows
      exact List.mem_of_getElem? (refers n type node member).2.1
  | column path qualifier name column => cases shows
  | entry path entry => cases shows

/-! ## Steps -/

/-- From `s` to `s'` the names `N` are printed.  `texts` were taken from buffers outside
`L` and are not appended yet. -/
structure Printing (cat : Catalog) (L : Set Nat) (N : Set Sighting) (s : State)
    (texts : List (List Token)) (s' : State) : Prop where
  numbered : Numbered cat s'
  params : s.params_list <+: s'.params_list
  nodes : ∀ node, node ∈ s'.params_list ↔
    node ∈ s.params_list ∨ Sighting.placeholder node ∈ N
  next : s.next ≤ s'.next
  path : s'.path = s.path
  frame : ∀ b, b < s.next → b ∉ L → s'.bufs b = s.bufs b
  refers : ∀ tokens ∈ texts, Refers cat s'.params_list tokens
  seen : Seen L s' ∪ sightings texts.flatten = Seen L s ∪ N

theorem Printing.nothing {L : Set Nat} {s : State} (numbered : Numbered cat s) :
    Printing cat L ∅ s [] s where
  numbered := numbered
  params := List.prefix_rfl
  nodes node := by simp
  next := Nat.le_refl _
  path := rfl
  frame _ _ _ := rfl
  refers tokens member := absurd member List.not_mem_nil
  seen := by simp

theorem Printing.trans {L : Set Nat} {N N' : Set Sighting} {s s' s'' : State}
    {texts texts' : List (List Token)} (first : Printing cat L N s texts s')
    (second : Printing cat L N' s' texts' s'') :
    Printing cat L (N ∪ N') s (texts ++ texts') s'' where
  numbered := second.numbered
  params := first.params.trans second.params
  nodes node := by
    rw [second.nodes, first.nodes, or_assoc]
    rfl
  next := Nat.le_trans first.next second.next
  path := second.path.trans first.path
  frame b below other := (second.frame b (Nat.lt_of_lt_of_le below first.next) other).trans
    (first.frame b below other)
  refers tokens member := by
    rcases List.mem_append.mp member with member | member
    · exact (first.refers tokens member).mono second.params
    · exact second.refers tokens member
  seen := by
    rw [List.flatten_append, sightings_append, Set.union_comm (sightings texts.flatten),
      ← Set.union_assoc, second.seen, Set.union_right_comm, first.seen, Set.union_assoc]

/-- Appending what was taken adds no name. -/
theorem Printing.spend {L : Set Nat} {N M : Set Sighting} {s s' s'' : State}
    {texts : List (List Token)} (first : Printing cat L N s texts s')
    (second : Printing cat L (M ∪ sightings texts.flatten) s' [] s'') :
    Printing cat L (N ∪ M) s [] s'' where
  numbered := second.numbered
  params := first.params.trans second.params
  nodes node := by
    have taken : Sighting.placeholder node ∈ sightings texts.flatten →
        node ∈ s'.params_list := by
      rintro ⟨token, member, shows⟩
      obtain ⟨tokens, text, member⟩ := List.mem_flatten.mp member
      exact (first.refers tokens text).mem ⟨token, member, shows⟩
    have split : node ∈ s''.params_list ↔ node ∈ s'.params_list ∨
        (Sighting.placeholder node ∈ M ∨
          Sighting.placeholder node ∈ sightings texts.flatten) := second.nodes node
    have union : Sighting.placeholder node ∈ N ∪ M ↔
        Sighting.placeholder node ∈ N ∨ Sighting.placeholder node ∈ M := Iff.rfl
    have nodes := first.nodes node
    rw [split, union]
    constructor
    · intro given
      rcases given with old | new | text
      · exact (nodes.mp old).imp_right .inl
      · exact .inr (.inr new)
      · exact (nodes.mp (taken text)).imp_right .inl
    · intro given
      rcases given with old | new | new'
      · exact .inl (nodes.mpr (.inl old))
      · exact .inl (nodes.mpr (.inr new))
      · exact .inr (.inl new')
  next := Nat.le_trans first.next second.next
  path := second.path.trans first.path
  frame b below other := (second.frame b (Nat.lt_of_lt_of_le below first.next) other).trans
    (first.frame b below other)
  refers tokens member := absurd member List.not_mem_nil
  seen := by
    have after := second.seen
    have before := first.seen
    simp only [List.flatten_nil, sightings_nil, Set.union_empty] at after ⊢
    rw [after, Set.union_comm M, ← Set.union_assoc, before, Set.union_assoc]

/-- What an action prints after the entries `before` are there, if the buffers of `L` are in
use. -/
def Prints (cat : Catalog) (before : List ParamExpr) (L : Set Nat) (act : Action)
    (N : Path → Set Sighting) : Prop :=
  ∀ s, before <+: s.params_list → (∀ b ∈ L, b < s.next) → Numbered cat s →
    Printing cat L (N s.path) s [] (act s)

variable {before : List ParamExpr} {L : Set Nat} {N N' : Path → Set Sighting}

theorem Prints.congr {act : Action} (prints : Prints cat before L act N)
    (same : ∀ path, N path = N' path) : Prints cat before L act N' :=
  funext same ▸ prints

theorem Prints.nothing : Prints cat before L id fun _ => ∅ :=
  fun _ _ _ numbered => Printing.nothing numbered

theorem Prints.later {act : Action} {after : List ParamExpr}
    (prints : Prints cat before L act N) (longer : before <+: after) :
    Prints cat after L act N :=
  fun s later used numbered => prints s (longer.trans later) used numbered

/-- Buffers that are in use besides those of `L` are left alone. -/
theorem Prints.widen {act : Action} {W : Set Nat} (prints : Prints cat before L act N)
    (wider : L ⊆ W) : Prints cat before W act N := by
  intro s after used numbered
  have run := prints s after (fun b live => used b (wider live)) numbered
  refine ⟨run.numbered, run.params, run.nodes, run.next, run.path,
    fun b below other => run.frame b below fun live => other (wider live), run.refers, ?_⟩
  have split (s : State) : Seen W s = Seen L s ∪ Seen (W \ L) s := by
    rw [← seen_union, Set.union_sdiff_cancel wider]
  have rest : Seen (W \ L) (act s) = Seen (W \ L) s := by
    ext x
    refine exists_congr fun b => and_congr_right fun member => ?_
    rw [run.frame b (used b member.1) member.2]
  have seen := run.seen
  simp only [List.flatten_nil, sightings_nil, Set.union_empty] at seen ⊢
  rw [split, split, rest, seen, Set.union_right_comm]

theorem Prints.comp {first second : Action} (prints : Prints cat before L first N)
    (then_prints : Prints cat before L second N') :
    Prints cat before L (fun s => second (first s)) fun path => N path ∪ N' path := by
  intro s after used numbered
  have run := prints s after used numbered
  have run' := then_prints (first s) (after.trans run.params)
    (fun b live => Nat.lt_of_lt_of_le (used b live) run.next) run.numbered
  rw [run.path] at run'
  exact run.trans run'

/-- One after the other. -/
theorem Prints.perform {acts : List Action} {Ns : List (Path → Set Sighting)}
    (prints : List.Forall₂ (Prints cat before L) acts Ns) :
    Prints cat before L (perform acts) fun path => {x | ∃ N ∈ Ns, x ∈ N path} := by
  induction prints with
  | nil => exact Prints.nothing.congr fun path => by simp
  | cons first _ rest => exact (first.comp rest).congr fun path => by ext x; simp

theorem Prints.optional {act : Action} (prints : Prints cat before L act N) (c : Bool) :
    Prints cat before L (if c then act else id) fun path => {x | c = true ∧ x ∈ N path} := by
  cases c with
  | false => exact Prints.nothing.congr fun path => by simp
  | true => exact prints.congr fun path => by simp

theorem Prints.inSelect {act : Action} (prints : Prints cat before L act N)
    (FROM : List FromEntry) :
    Prints cat before L (inSelect FROM act) fun path => N (path ++ [FROM]) := by
  intro s after used numbered
  have run := prints { s with path := s.path ++ [FROM] } after used
    ⟨numbered.nodup, numbered.refers, numbered.unused⟩
  exact ⟨⟨run.numbered.nodup, run.numbered.refers, run.numbered.unused⟩, run.params, run.nodes,
    run.next, rfl, run.frame, run.refers, run.seen⟩

/-! ## Appending -/

theorem numbered_append {s : State} (numbered : Numbered cat s) {buf : Nat}
    (used : buf < s.next) {tokens : List Token}
    (refers : Refers cat s.params_list tokens) : Numbered cat (append buf tokens s) where
  nodup := numbered.nodup
  refers b := by
    by_cases same : b = buf
    · subst same
      simp only [append, Function.update_self]
      exact (numbered.refers b).append refers
    · simp only [append, Function.update_of_ne same]
      exact numbered.refers b
  unused b free := by
    have other : b ≠ buf := by
      have free : s.next ≤ b := free
      omega
    simp only [append, Function.update_of_ne other]
    exact numbered.unused b free

theorem seen_append (s : State) {buf : Nat} (live : buf ∈ L) (tokens : List Token) :
    Seen L (append buf tokens s) = Seen L s ∪ sightings tokens := by
  ext x
  simp only [Seen, append, Set.mem_ofPred_eq, Set.mem_union]
  constructor
  · rintro ⟨b, member, shown⟩
    by_cases same : b = buf
    · subst same
      rw [Function.update_self, sightings_append] at shown
      rcases shown with shown | shown
      · exact .inl ⟨b, member, shown⟩
      · exact .inr shown
    · rw [Function.update_of_ne same] at shown
      exact .inl ⟨b, member, shown⟩
  · rintro (⟨b, member, shown⟩ | shown)
    · refine ⟨b, member, ?_⟩
      by_cases same : b = buf
      · subst same
        rw [Function.update_self, sightings_append]
        exact .inl shown
      · rwa [Function.update_of_ne same]
    · refine ⟨buf, live, ?_⟩
      rw [Function.update_self, sightings_append]
      exact .inr shown

theorem bufs_append (s : State) {buf : Nat} (live : buf ∈ L) (tokens : List Token) {b : Nat}
    (other : b ∉ L) : (append buf tokens s).bufs b = s.bufs b := by
  have differ : b ≠ buf := by
    rintro rfl
    exact other live
  exact Function.update_of_ne differ _ _

/-- Appending pieces whose placeholders refer to entries that are there. -/
theorem Prints.append {buf : Nat} (live : buf ∈ L) {tokens : List Token}
    (refers : Refers cat before tokens) :
    Prints cat before L (append buf tokens) fun _ => sightings tokens := by
  intro s after used numbered
  refine ⟨numbered_append numbered (used buf live) (refers.mono after), List.prefix_rfl, ?_,
    Nat.le_refl _, rfl, fun b _ other => bufs_append s live tokens other,
    fun tokens member => absurd member List.not_mem_nil, ?_⟩
  · intro node
    constructor
    · exact .inl
    · rintro (old | shown)
      · exact old
      · exact (refers.mono after).mem shown
  · rw [List.flatten_nil, sightings_nil, Set.union_empty, seen_append s live]

theorem Prints.appendText {buf : Nat} (live : buf ∈ L) (text : String) :
    Prints cat before L (appendText buf text) fun _ => ∅ :=
  (Prints.append live (by simp [Refers])).congr fun _ => by
    simp [sightings_singleton, Token.sighting]

theorem Prints.appendEntry {buf : Nat} (live : buf ∈ L) (entry : FromEntry) :
    Prints cat before L (appendEntry buf entry) fun path => {.entry path entry} := by
  intro s after used numbered
  have refers : Refers cat before [.entry s.path entry] := by simp [Refers]
  have run := Prints.append live refers s after used numbered
  simp only [sightings_singleton, Token.sighting, Option.some.injEq, Set.ofPred_eq_eq_singleton']
    at run
  exact run

theorem Prints.appendColumn {context : deparse_expr_cxt} (live : context.buf ∈ L)
    (qualifier : Option Alias) (name : ColumnName) (column : ColumnId) :
    Prints cat before L (appendColumn qualifier name column context) fun path =>
      {.column path qualifier name column} := by
  intro s after used numbered
  have refers : Refers cat before [.column s.path qualifier name column] := by simp [Refers]
  have run := Prints.append live refers s after used numbered
  simp only [sightings_singleton, Token.sighting, Option.some.injEq, Set.ofPred_eq_eq_singleton']
    at run
  exact run

/-- An error changes nothing that is printed. -/
theorem Prints.error {act : Action} (prints : Prints cat before L act N)
    (error : State → Bool) :
    Prints cat before L (fun s => act { s with error := error s }) N := by
  intro s after used numbered
  have run := prints { s with error := error s } after used
    ⟨numbered.nodup, numbered.refers, numbered.unused⟩
  exact ⟨run.numbered, run.params, run.nodes, run.next, run.path, run.frame, run.refers,
    run.seen⟩

/-- A node is found in `params_list` or becomes its last entry. -/
theorem Prints.printRemoteParam {context : deparse_expr_cxt} (live : context.buf ∈ L)
    (node : ParamExpr) :
    Prints cat before L (printRemoteParam cat node context) fun _ => {.placeholder node} := by
  intro s after used numbered
  have shown (n : Nat) : sightings [.placeholder n (node.remote_type cat) node] =
      {.placeholder node} := by
    simp [sightings_singleton, Token.sighting]
  rw [Emit.printRemoteParam]
  cases found : s.params_list.findIdx? (· = node) with
  | some i =>
      rw [List.findIdx?_eq_some_iff_getElem] at found
      obtain ⟨below, same, -⟩ := found
      have entry : s.params_list[i]? = some node := by
        rw [List.getElem?_eq_getElem below, of_decide_eq_true same]
      have refers : Refers cat s.params_list
          [.placeholder (i + 1) (node.remote_type cat) node] := by
        intro n type node' member
        cases List.mem_singleton.mp member
        exact ⟨Nat.succ_pos i, entry, rfl⟩
      have run := Prints.append live refers s List.prefix_rfl used numbered
      rw [shown] at run
      exact run
  | none =>
      have new : node ∉ s.params_list := by
        intro member
        have differs := List.findIdx?_eq_none_iff.mp found node member
        simp at differs
      let s' : State := { s with params_list := s.params_list ++ [node] }
      have longer : s.params_list <+: s'.params_list := List.prefix_append _ _
      have numbered' : Numbered cat s' :=
        ⟨List.nodup_append.mpr ⟨numbered.nodup, List.pairwise_singleton _ node, by
            intro a old b latest same
            exact new (List.mem_singleton.mp latest ▸ same ▸ old)⟩,
          fun b => (numbered.refers b).mono longer, numbered.unused⟩
      have refers : Refers cat s'.params_list
          [.placeholder (s.params_list.length + 1) (node.remote_type cat) node] := by
        intro n type node' member
        cases List.mem_singleton.mp member
        exact ⟨Nat.succ_pos _, by simp [s'], rfl⟩
      refine ⟨numbered_append numbered' (used _ live) refers, longer, fun node' => ?_,
        Nat.le_refl _, rfl, fun b _ other => bufs_append s' live _ other,
        fun tokens member => absurd member List.not_mem_nil, ?_⟩
      · exact List.mem_append.trans (or_congr Iff.rfl (by simp))
      · rw [List.flatten_nil, sightings_nil, Set.union_empty, seen_append s' live, shown]
        rfl

/-! ## Buffers of their own -/

/-- What is printed into a fresh buffer is there or in the other buffers. -/
theorem printing_intoBuffer {act : Nat → Action}
    (prints : ∀ b, Prints cat before (insert b L) (act b) N) (s : State)
    (after : before <+: s.params_list) (used : ∀ b ∈ L, b < s.next)
    (numbered : Numbered cat s) :
    Printing cat L (N s.path) s [(intoBuffer act s).1] (intoBuffer act s).2 := by
  have reserved : Numbered cat { s with next := s.next + 1 } :=
    ⟨numbered.nodup, numbered.refers, fun b free =>
      numbered.unused b (Nat.le_of_succ_le free)⟩
  have run := prints s.next { s with next := s.next + 1 } after
    (by
      intro b member
      rcases Set.mem_insert_iff.mp member with rfl | member
      · exact Nat.lt_succ_self _
      · exact Nat.lt_succ_of_lt (used b member))
    reserved
  have split (s' : State) : Seen (insert s.next L) s' = Seen L s' ∪ sightings (s'.bufs s.next) := by
    rw [Set.insert_eq, seen_union, Set.union_comm]
    simp [Seen]
  refine ⟨run.numbered, run.params, run.nodes, Nat.le_of_succ_le run.next, run.path, ?_, ?_, ?_⟩
  · intro b below other
    refine run.frame b (Nat.lt_succ_of_lt below) fun member => ?_
    rcases Set.mem_insert_iff.mp member with rfl | member
    · exact Nat.lt_irrefl _ below
    · exact other member
  · intro tokens member
    cases List.mem_singleton.mp member
    exact run.numbered.refers s.next
  · have seen := run.seen
    have empty : sightings (s.bufs s.next) = ∅ := by
      rw [numbered.unused s.next (Nat.le_refl _), sightings_nil]
    have same : Seen (insert s.next L) { s with next := s.next + 1 } = Seen L s := by
      rw [split]
      exact (congrArg _ empty).trans (Set.union_empty _)
    rw [split, same, List.flatten_nil, sightings_nil, Set.union_empty] at seen
    rw [List.flatten_singleton]
    exact seen

/-! ## Emitters -/

/-- A context that prints into the buffers of `L`, and the listing of what it prints. -/
structure Fits (cat : Catalog) (before : List ParamExpr) (L : Set Nat)
    (scanrel : RelOptInfo Expr) (has_inlined_subplan : Bool) (context : deparse_expr_cxt)
    (around : Around) : Prop where
  buf : context.buf ∈ L
  scan : context.scanrel = scanrel
  subplan : context.subplan = around.subplan
  inlined : context.subplan = none → context.has_inlined_subplan = has_inlined_subplan
  args : ∀ paramid, Option.Rel
    (fun act printed => Prints cat before L act (sights cat scanrel has_inlined_subplan printed))
    (context.correlation_arg paramid) (around.correlation_arg paramid)

/-- What an emitter prints in a context is listed. -/
def Emits (cat : Catalog) (emit : Emitter) (printed : Printed) : Prop :=
  ∀ before L scanrel has_inlined_subplan context around,
    Fits cat before L scanrel has_inlined_subplan context around →
      Prints cat before L (emit context)
        (sights cat scanrel has_inlined_subplan (printed around))

/-- Emitters and the listings of what they print. -/
abbrev AllEmit (cat : Catalog) (emits : List Emitter) (printed : List Printed) : Prop :=
  List.Forall₂ (Emits cat) emits printed

section

variable {scanrel : RelOptInfo Expr} {has_inlined_subplan : Bool} {context : deparse_expr_cxt}
  {around : Around}

theorem rel_imp {α β : Type} {r r' : α → β → Prop} (imp : ∀ a b, r a b → r' a b)
    {a : Option α} {b : Option β} (rel : Option.Rel r a b) : Option.Rel r' a b := by
  cases rel with
  | some rel => exact .some (imp _ _ rel)
  | none => exact .none

theorem Fits.later {after : List ParamExpr}
    (fits : Fits cat before L scanrel has_inlined_subplan context around)
    (longer : before <+: after) :
    Fits cat after L scanrel has_inlined_subplan context around :=
  ⟨fits.buf, fits.scan, fits.subplan, fits.inlined, fun paramid =>
    rel_imp (fun _ _ prints => prints.later longer) (fits.args paramid)⟩

theorem Fits.capture (fits : Fits cat before L scanrel has_inlined_subplan context around)
    (buf : Nat) :
    Fits cat before (insert buf L) scanrel has_inlined_subplan { context with buf := buf }
      around :=
  ⟨Set.mem_insert buf L, fits.scan, fits.subplan, fits.inlined, fun paramid =>
    rel_imp (fun _ _ prints => prints.widen (Set.subset_insert buf L)) (fits.args paramid)⟩

/-- Correlation arguments print in the outer context. -/
theorem Fits.sub (fits : Fits cat before L scanrel has_inlined_subplan context around)
    (info : SubPlanInfo) {args : List Emitter} {printed : List Printed}
    (emits : AllEmit cat args printed) :
    Fits cat before L scanrel has_inlined_subplan (subcontext info args context)
      (around.sub info printed) := by
  refine ⟨fits.buf, fits.scan, rfl, fun outer => absurd outer (Option.some_ne_none info), ?_⟩
  intro paramid
  simp only [subcontext, Around.sub]
  generalize info.parParam = parParam
  induction emits generalizing parParam with
  | nil => simp
  | @cons emit listed _ _ first _ rest =>
      cases parParam with
      | nil => simp
      | cons head parParam =>
          simp only [List.zip_cons_cons, List.find?_cons]
          by_cases same : (head == paramid) = true
          · simp only [same, Option.map_some]
            exact .some (first _ _ _ _ _ _ fits)
          · simp only [same]
            exact rest parParam

end

/-- A list of emitters with something between them. -/
theorem prints_separated {separator : Action}
    (between : Prints cat before L separator fun _ => ∅) {acts : List Action}
    {Ns : List (Path → Set Sighting)} (prints : List.Forall₂ (Prints cat before L) acts Ns) :
    Prints cat before L (perform (separated separator acts)) fun path =>
      {x | ∃ N ∈ Ns, x ∈ N path} := by
  induction prints with
  | nil => exact Prints.nothing.congr fun path => by simp
  | @cons act N acts Ns first rest ih =>
      cases rest with
      | nil => exact (first.comp Prints.nothing).congr fun path => by ext x; simp
      | cons second others =>
          exact (first.comp (between.comp ih)).congr fun path => by ext x; simp

theorem prints_between {buf : Nat} (live : buf ∈ L) {act : Action}
    (prints : Prints cat before L act N) (opening closing : String) :
    Prints cat before L
      (perform [appendText buf opening, act, appendText buf closing]) N :=
  ((Prints.appendText live opening).comp
    (prints.comp (Prints.appendText live closing))).congr fun path => by simp

section

variable {scanrel : RelOptInfo Expr} {has_inlined_subplan : Bool} {context : deparse_expr_cxt}
  {around : Around} {emits : List Emitter} {printed : List Printed}

/-- Each emitter of a list, with something around it. -/
theorem prints_each (each : AllEmit cat emits printed)
    (fits : Fits cat before L scanrel has_inlined_subplan context around)
    {wrap : Action → Action} (wrapped : ∀ {act N}, Prints cat before L act N →
      Prints cat before L (wrap act) N) :
    List.Forall₂ (Prints cat before L) (emits.map fun emit => wrap (emit context))
      (printed.map fun listed => sights cat scanrel has_inlined_subplan (listed around)) := by
  induction each with
  | nil => exact .nil
  | cons first _ rest => exact .cons (wrapped (first _ _ _ _ _ _ fits)) rest

theorem sights_printedBy (printed : List Printed) (path : Path) :
    sights cat scanrel has_inlined_subplan (printedBy printed around) path =
      {x | ∃ N ∈ printed.map (fun listed =>
        sights cat scanrel has_inlined_subplan (listed around)), x ∈ N path} := by
  rw [printedBy, sights_flatMap]
  simp

theorem emits_appendConditions (each : AllEmit cat emits printed) :
    Emits cat (appendConditions emits) (printedBy printed) := by
  intro before L scanrel has_inlined_subplan context around fits
  exact (prints_separated (Prints.appendText fits.buf _)
    (prints_each each fits fun prints => prints_between fits.buf prints "(" ")")).congr
      fun path => (sights_printedBy printed path).symm

theorem emits_appendList (each : AllEmit cat emits printed) :
    Emits cat (appendList emits) (printedBy printed) := by
  intro before L scanrel has_inlined_subplan context around fits
  exact (prints_separated (Prints.appendText fits.buf _)
    (prints_each each fits fun prints => prints)).congr
      fun path => (sights_printedBy printed path).symm

theorem emits_appendClause (keyword : String) (each : AllEmit cat emits printed) {body : Emitter}
    (emitsBody : Emits cat body (printedBy printed)) :
    Emits cat (appendClause keyword emits body) (printedBy printed) := by
  intro before L scanrel has_inlined_subplan context around fits
  cases each with
  | nil => exact Prints.nothing.congr fun path => by simp [printedBy]
  | cons first rest =>
      exact ((Prints.appendText fits.buf keyword).comp
        (emitsBody _ _ _ _ _ _ fits)).congr fun path => by simp

end

/-! ## Templates -/

section

variable {scanrel : RelOptInfo Expr} {has_inlined_subplan : Bool} {context : deparse_expr_cxt}
  {around : Around} {operands : List Emitter} {printed : List Printed}

theorem emits_getElem? (emits : AllEmit cat operands printed) (i : Nat) :
    Option.Rel (Emits cat) operands[i]? printed[i]? := by
  induction emits generalizing i with
  | nil => exact .none
  | cons first _ rest =>
      cases i with
      | zero => exact .some first
      | succ i => exact rest i

theorem captureAll_length (operands : List Emitter) (context : deparse_expr_cxt)
    (captures : List Nat) (s : State) :
    (captureAll operands context captures s).1.length = captures.length := by
  induction captures generalizing s with
  | nil => rfl
  | cons i captures ih => exact congrArg Nat.succ (ih _)

theorem printing_captureAll (emits : AllEmit cat operands printed)
    (fits : Fits cat before L scanrel has_inlined_subplan context around) (captures : List Nat)
    (s : State) (after : before <+: s.params_list) (used : ∀ b ∈ L, b < s.next)
    (numbered : Numbered cat s) :
    Printing cat L
      (sights cat scanrel has_inlined_subplan
        (captures.flatMap fun i => operandPrinted printed i around) s.path) s
      (captureAll operands context captures s).1 (captureAll operands context captures s).2 := by
  induction captures generalizing s with
  | nil =>
      rw [List.flatMap_nil, sights_nil]
      exact Printing.nothing numbered
  | cons i captures ih =>
      rw [List.flatMap_cons, sights_append]
      have operand := emits_getElem? emits i
      simp only [captureAll, operandPrinted]
      generalize operands[i]? = emitter at operand
      generalize printed[i]? = listed at operand
      cases operand with
      | none =>
          have empty : Printing cat L ∅ s [[]] s :=
            ⟨numbered, List.prefix_rfl, fun node => by simp, Nat.le_refl _, rfl,
              fun _ _ _ => rfl, by simp [Refers], by simp⟩
          rw [Option.map_none, Option.getD_none, sights_nil]
          exact empty.trans (ih s after used numbered)
      | some emits =>
          have first := printing_intoBuffer (fun b => emits _ _ _ _ _ _ (fits.capture b)) s after
            used numbered
          have rest := ih _ (after.trans first.params)
            (fun b member => Nat.lt_of_lt_of_le (used b member) first.next) first.numbered
          rw [first.path] at rest
          exact first.trans rest

theorem prints_operand (emits : AllEmit cat operands printed)
    (fits : Fits cat before L scanrel has_inlined_subplan context around) (i : Nat) :
    Prints cat before L ((operands[i]?.map fun emit => emit context).getD id)
      (sights cat scanrel has_inlined_subplan (operandPrinted printed i around)) := by
  have operand := emits_getElem? emits i
  rw [operandPrinted]
  generalize operands[i]? = emitter at operand
  generalize printed[i]? = listed at operand
  cases operand with
  | none => exact Prints.nothing.congr fun path => (sights_nil path).symm
  | some emits => exact emits _ _ _ _ _ _ fits

theorem prints_appendSign
    (fits : Fits cat before L scanrel has_inlined_subplan context around) :
    Prints cat before L (appendSign cat context)
      (sights cat scanrel has_inlined_subplan [⟨.sign, around.subplan, []⟩]) := by
  rw [appendSign, fits.scan]
  cases scanrel with
  | base relid dbname relname reltarget remote_conds local_conds =>
      exact (Prints.appendColumn fits.buf _ _ _).congr fun path => by
        rw [sights_singleton (by rw [Occurrence.sighting, List.map_nil, List.append_nil])]
  | join i t r l jointype joinclauses outer_subquery inner_subquery outerrel innerrel =>
      exact Prints.nothing.congr fun path => by simp [sights, Occurrence.sighting]

/-- What a piece shows of the operands that were captured. -/
def Piece.appended (captured : List (List Token)) : Piece → Set Sighting
  | .captured k => sightings (captured[k]?.getD [])
  | _ => ∅

/-- All that is captured is used. -/
theorem sightings_captured (template : Template) {captured : List (List Token)}
    (length : captured.length = template.captures.length) :
    {x | ∃ piece ∈ template.pieces, x ∈ piece.appended captured} =
      sightings captured.flatten := by
  ext x
  constructor
  · rintro ⟨piece, -, shown⟩
    cases piece with
    | captured k =>
        obtain ⟨token, member, shows⟩ := shown
        cases entry : captured[k]? with
        | none => simp [entry] at member
        | some tokens =>
            rw [entry] at member
            exact ⟨token, List.mem_flatten_of_mem (List.mem_of_getElem? entry) member, shows⟩
    | text text => exact absurd shown (Set.notMem_empty x)
    | operand i => exact absurd shown (Set.notMem_empty x)
    | sign => exact absurd shown (Set.notMem_empty x)
  · rintro ⟨token, member, shows⟩
    obtain ⟨tokens, text, member⟩ := List.mem_flatten.mp member
    obtain ⟨k, below, rfl⟩ := List.mem_iff_getElem.mp text
    refine ⟨.captured k, template.used k (length ▸ below), token, ?_, shows⟩
    rw [List.getElem?_eq_getElem below]
    exact member

/-- What is captured is listed once, where it is captured. -/
theorem emits_appendTemplate (emits : AllEmit cat operands printed) (template : Template) :
    Emits cat (appendTemplate cat operands template) (template.printed printed) := by
  intro before L scanrel has_inlined_subplan context around fits s after used numbered
  have captures := printing_captureAll emits fits template.captures s after used numbered
  have length := captureAll_length operands context template.captures s
  simp only [appendTemplate, Template.printed]
  generalize captureAll operands context template.captures s = result at captures length
  obtain ⟨captured, s'⟩ := result
  have used' := fun b member => Nat.lt_of_lt_of_le (used b member) captures.next
  have fits' := fits.later (after.trans captures.params)
  have pieces : List.Forall₂ (Prints cat s'.params_list L)
      (template.pieces.map fun piece => appendPiece cat operands captured piece context)
      (template.pieces.map fun piece path =>
        sights cat scanrel has_inlined_subplan (piece.printed printed around) path ∪
          piece.appended captured) := by
    rw [List.forall₂_map_left_iff, List.forall₂_map_right_iff, List.forall₂_same]
    intro piece _
    cases piece with
    | text text =>
        exact (Prints.appendText fits.buf text).congr fun path => by
          simp [Piece.printed, Piece.appended]
    | operand i =>
        exact (prints_operand emits fits' i).congr fun path => by
          simp [Piece.printed, Piece.appended]
    | captured k =>
        refine (Prints.append fits.buf ?_).congr fun path => by
          simp [Piece.printed, Piece.appended]
        cases entry : captured[k]? with
        | none => simp [Refers]
        | some tokens => exact captures.refers tokens (List.mem_of_getElem? entry)
    | sign =>
        exact (prints_appendSign fits').congr fun path => by
          simp [Piece.printed, Piece.appended]
  have same (path : Path) : {x | ∃ N ∈ template.pieces.map (fun piece path =>
        sights cat scanrel has_inlined_subplan (piece.printed printed around) path ∪
          piece.appended captured), x ∈ N path} =
      sights cat scanrel has_inlined_subplan
        (template.pieces.flatMap fun piece => piece.printed printed around) path ∪
          sightings captured.flatten := by
    rw [sights_flatMap, ← sightings_captured template length]
    ext x
    simp [and_or_left, exists_or]
  rw [sights_append]
  refine captures.spend ?_
  rw [← captures.path]
  exact ((Prints.perform pieces).congr same) s' List.prefix_rfl used' captures.numbered

end

/-! ## Columns and parameters -/

theorem Prints.deparseColumnRef {context : deparse_expr_cxt} (live : context.buf ∈ L)
    (qualifier : Option Alias) (rte : Rte) (varattno : Int) :
    Prints cat before L (deparseColumnRef cat qualifier rte varattno context) fun path =>
      {.column path qualifier (.named (cat.column_name rte varattno)) (.column rte varattno)} :=
  (Prints.appendColumn live _ _ _).error fun s => s.error || varattno ≤ 0

theorem emits_deparseVar (node : Var) :
    Emits cat (deparseVar cat node) fun around => [⟨.Var node, around.subplan, []⟩] := by
  intro before L scanrel has_inlined_subplan context around fits
  simp only [deparseVar, fits.scan, fits.subplan]
  cases subplan : around.subplan with
  | some subplan =>
      exact (Prints.deparseColumnRef fits.buf _ _ _).congr fun path =>
        (sights_singleton (by simp [Occurrence.sighting])).symm
  | none =>
      have inlined := fits.inlined (fits.subplan.trans subplan)
      cases subquery : is_subquery_var node scanrel with
      | some ids =>
          cases ids with
          | some ids =>
              exact (Prints.appendColumn fits.buf _ _ _).congr fun path =>
                (sights_singleton (by simp [Occurrence.sighting, subquery])).symm
          | none =>
              exact (Prints.nothing.error fun _ => true).congr fun path => by
                simp [sights, Occurrence.sighting, subquery]
      | none =>
          by_cases scanned : node.varno ∈ scanrel.relids ∧ node.varlevelsup = 0
          · simp only [if_pos scanned, inlined]
            exact (Prints.deparseColumnRef fits.buf _ _ _).congr fun path =>
              (sights_singleton (by
                simp [Occurrence.sighting, subquery, scanned, useAlias])).symm
          · simp only [if_neg scanned]
            exact (Prints.printRemoteParam fits.buf _).congr fun path =>
              (sights_singleton (by
                simp only [Occurrence.sighting, subquery, if_neg scanned])).symm

theorem emits_deparseParam (node : Param) :
    Emits cat (deparseParam cat node) (paramPrinted node) := by
  intro before L scanrel has_inlined_subplan context around fits
  have remote : Prints cat before L (printRemoteParam cat (.Param node) context)
      (sights cat scanrel has_inlined_subplan [⟨.Param node, around.subplan, []⟩]) :=
    (Prints.printRemoteParam fits.buf _).congr fun path => (sights_singleton rfl).symm
  simp only [deparseParam, paramPrinted, fits.subplan]
  by_cases correlated : around.subplan.isSome ∧ node.paramkind = .PARAM_EXEC
  · simp only [if_pos correlated]
    have arg := fits.args node.paramid
    generalize context.correlation_arg node.paramid = act at arg
    generalize around.correlation_arg node.paramid = listed at arg
    cases arg with
    | none => exact remote
    | some prints => exact prints_between fits.buf prints "(" ")"
  · simp only [if_neg correlated]
    exact remote

/-! ## Subplans -/

structure SubPlanParts.AllEmit (cat : Catalog) (parts : SubPlanParts) (printed : PartsPrinted) :
    Prop where
  args : Emit.AllEmit cat parts.args printed.args
  probe : Emit.AllEmit cat parts.probe printed.probe
  targetList : Emit.AllEmit cat parts.targetList printed.targetList
  quals : Emit.AllEmit cat parts.quals printed.quals
  groupClause : Emit.AllEmit cat parts.groupClause printed.groupClause
  havingQual : Emit.AllEmit cat parts.havingQual printed.havingQual

section

variable {scanrel : RelOptInfo Expr} {has_inlined_subplan : Bool} {context : deparse_expr_cxt}
  {around : Around} {info : SubPlanInfo} {parts : SubPlanParts} {printed : PartsPrinted}

/-- One after the other, with the listing of each. -/
theorem prints_listed {acts : List Action} {listed : List (List Occurrence)}
    (each : List.Forall₂ (fun act printed =>
      Prints cat before L act (sights cat scanrel has_inlined_subplan printed)) acts listed) :
    Prints cat before L (perform acts)
      (sights cat scanrel has_inlined_subplan listed.flatten) := by
  induction each with
  | nil => exact Prints.nothing.congr fun path => (sights_nil path).symm
  | cons first _ rest =>
      exact (first.comp rest).congr fun path => (sights_append _ _ path).symm

theorem prints_text {buf : Nat} (live : buf ∈ L) (text : String) :
    Prints cat before L (appendText buf text) (sights cat scanrel has_inlined_subplan []) :=
  (Prints.appendText live text).congr fun path => (sights_nil path).symm

/-- How an entry shows. -/
theorem sighting_entry (entry : FromEntry) (subplan : Option SubPlanInfo) (path : Path) :
    Occurrence.sighting cat scanrel has_inlined_subplan path ⟨.entry entry, subplan, []⟩ =
      some (.entry path entry) := by
  simp [Occurrence.sighting]

theorem prints_deparseSubPlanFrom (live : context.buf ∈ L) (info : SubPlanInfo)
    (subplan : Option SubPlanInfo) :
    Prints cat before L (deparseSubPlanFrom info context)
      (sights cat scanrel has_inlined_subplan
        ((subPlanEntries info).map fun entry => ⟨.entry entry, subplan, []⟩)) := by
  have each : List.Forall₂ (Prints cat before L)
      ((subPlanEntries info).map (appendEntry context.buf))
      ((subPlanEntries info).map fun entry path => {Sighting.entry path entry}) := by
    rw [List.forall₂_map_left_iff, List.forall₂_map_right_iff, List.forall₂_same]
    exact fun entry _ => Prints.appendEntry live entry
  refine (prints_separated (Prints.appendText live _) each).congr fun path => ?_
  ext x
  constructor
  · rintro ⟨N, member, shown⟩
    obtain ⟨entry, of, rfl⟩ := List.mem_map.mp member
    rw [Set.mem_singleton_iff.mp shown]
    exact ⟨_, List.mem_map_of_mem of, sighting_entry entry subplan path⟩
  · rintro ⟨o, member, shows⟩
    obtain ⟨entry, of, rfl⟩ := List.mem_map.mp member
    rw [sighting_entry] at shows
    exact ⟨_, List.mem_map_of_mem of, (Option.some.inj shows).symm⟩

/-- What the null probe of a body prints besides its FROM list. -/
def nullProbePrinted (printed : PartsPrinted) (inner : Around) : List Occurrence :=
  (printed.targetList.head?.map fun listed => listed inner).getD []

/-- The parts of the body, one after the other. -/
theorem prints_deparseSubPlanQuery (emits : parts.AllEmit cat printed)
    (fits : Fits cat before L scanrel has_inlined_subplan context around)
    (form : SubPlanBodyForm) :
    Prints cat before L (deparseSubPlanQuery info parts form context) fun path =>
      let inner := around.sub info printed.args
      sights cat scanrel has_inlined_subplan
        ((if form = .NULL_PROBE ∨ info.subLinkType = .EXISTS then []
            else printedBy printed.targetList inner) ++
          (subPlanEntries info).map (fun entry => ⟨.entry entry, some info, []⟩) ++
          printedBy printed.quals inner ++
          (if form = .NULL_PROBE then nullProbePrinted printed inner else []) ++
          printedBy printed.groupClause inner ++ printedBy printed.havingQual inner)
        (path ++ [subPlanEntries info]) := by
  have inner := fits.sub info emits.args
  have target : Prints cat before L
      (appendTargetList info parts form (subcontext info parts.args context))
      (sights cat scanrel has_inlined_subplan
        (if form = .NULL_PROBE ∨ info.subLinkType = .EXISTS then []
          else printedBy printed.targetList (around.sub info printed.args))) := by
    rw [appendTargetList]
    split
    · exact prints_text fits.buf "1"
    · exact emits_appendList emits.targetList _ _ _ _ _ _ inner
  have probe : Prints cat before L
      (if form = .NULL_PROBE then appendNullProbe parts (subcontext info parts.args context)
        else id)
      (sights cat scanrel has_inlined_subplan
        (if form = .NULL_PROBE then nullProbePrinted printed (around.sub info printed.args)
          else [])) := by
    split
    · refine prints_between fits.buf ?_ _ _
      rw [nullProbePrinted, List.head?_eq_getElem?, List.head?_eq_getElem?]
      exact prints_operand emits.targetList inner 0
    · exact Prints.nothing.congr fun path => (sights_nil path).symm
  have clauses := prints_listed
    (.cons (prints_text inner.buf "SELECT ") (.cons target
      (.cons (prints_text inner.buf " FROM ") (.cons
        (prints_deparseSubPlanFrom inner.buf info (some info)) (.cons
          (emits_appendClause " WHERE " emits.quals (emits_appendConditions emits.quals)
            _ _ _ _ _ _ inner) (.cons probe (.cons
              (emits_appendClause " GROUP BY " emits.groupClause
                (emits_appendList emits.groupClause) _ _ _ _ _ _ inner) (.cons
                  (emits_appendClause " HAVING " emits.havingQual
                    (emits_appendConditions emits.havingQual) _ _ _ _ _ _ inner) .nil))))))))
  refine (clauses.inSelect (subPlanEntries info)).congr fun path => ?_
  simp only [List.flatten_cons, List.flatten_nil, List.nil_append, List.append_nil,
    List.append_assoc]

theorem sights_subset {a b : List Occurrence} (subset : a ⊆ b) (path : Path) :
    sights cat scanrel has_inlined_subplan a path ⊆
      sights cat scanrel has_inlined_subplan b path := by
  rintro x ⟨o, member, shows⟩
  exact ⟨o, subset member, shows⟩

theorem prints_body (info : SubPlanInfo) (emits : parts.AllEmit cat printed)
    (fits : Fits cat before L scanrel has_inlined_subplan context around) :
    Prints cat before L (deparseSubPlanQuery info parts .QUERY context)
      (sights cat scanrel has_inlined_subplan (bodyPrinted info printed around)) := by
  refine (prints_deparseSubPlanQuery emits fits .QUERY).congr fun path => ?_
  rw [bodyPrinted, sights_within]
  simp

/-- The null probe prints nothing that the body does not print. -/
theorem prints_nullProbe (emits : parts.AllEmit cat printed) (any : info.subLinkType = .ANY)
    (fits : Fits cat before L scanrel has_inlined_subplan context around) :
    ∃ M : Path → Set Sighting,
      Prints cat before L (deparseSubPlanQuery info parts .NULL_PROBE context) M ∧
      ∀ path, M path ⊆
        sights cat scanrel has_inlined_subplan (bodyPrinted info printed around) path := by
  refine ⟨_, prints_deparseSubPlanQuery emits fits .NULL_PROBE, fun path => ?_⟩
  rw [bodyPrinted, sights_within]
  refine sights_subset ?_ _
  have output : nullProbePrinted printed (around.sub info printed.args) ⊆
      printedBy printed.targetList (around.sub info printed.args) := by
    intro o member
    rw [nullProbePrinted] at member
    cases head : printed.targetList.head? with
    | none => simp [head] at member
    | some listed =>
        rw [head] at member
        exact List.mem_flatMap.mpr ⟨listed, List.mem_of_head? head, member⟩
  intro o member
  simp only [true_or, if_true, any, reduceCtorEq, if_false, List.nil_append,
    List.mem_append] at member ⊢
  have := @output o
  tauto

theorem prints_probe (emits : parts.AllEmit cat printed)
    (fits : Fits cat before L scanrel has_inlined_subplan context around) :
    Prints cat before L (perform (parts.probe.map fun emit => emit context))
      (sights cat scanrel has_inlined_subplan (printedBy printed.probe around)) :=
  (Prints.perform (prints_each emits.probe fits fun prints => prints)).congr
    fun path => (sights_printedBy printed.probe path).symm

theorem emits_deparseSubPlan (emits : parts.AllEmit cat printed) :
    Emits cat (deparseSubPlan info parts) (subPlanPrinted info printed) := by
  intro before L scanrel has_inlined_subplan context around fits
  have body := prints_body info emits fits
  rw [deparseSubPlan, subPlanPrinted]
  cases link : info.subLinkType with
  | EXISTS => exact prints_between fits.buf body _ _
  | EXPR => exact prints_between fits.buf body _ _
  | ANY =>
      rw [if_pos rfl]
      refine (prints_listed (.cons (prints_text fits.buf _) (.cons (prints_probe emits fits)
        (.cons (prints_text fits.buf _) (.cons body
          (.cons (prints_text fits.buf _) .nil)))))).congr fun path => ?_
      simp

/-- The probe and the body are printed as often as the guards need them. -/
theorem emits_deparseGuardedNotIn (emits : parts.AllEmit cat printed)
    (any : info.subLinkType = .ANY) :
    Emits cat (deparseGuardedNotIn info parts) (subPlanPrinted info printed) := by
  intro before L scanrel has_inlined_subplan context around fits
  have probe := prints_probe emits fits
  have body := prints_body info emits fits
  obtain ⟨M, nullProbe, subset⟩ := prints_nullProbe emits any fits
  have text (s : String) : Prints cat before L (appendText context.buf s) fun _ => ∅ :=
    Prints.appendText fits.buf s
  have plain := Prints.perform (.cons (text "(") (.cons probe (.cons (text " NOT IN (")
    (.cons body (.cons (text ")") .nil)))))
  have guard := Prints.perform (.cons (text "(CASE WHEN (") (.cons probe
    (.cons (text ") IS NULL THEN NOT EXISTS (") (.cons body (.cons (text ") ELSE ") .nil)))))
  have poison := prints_between fits.buf nullProbe " AND NOT EXISTS (" ")"
  refine (Prints.perform (.cons (guard.optional info.nulls.PROBE_NULLABLE) (.cons plain
    (.cons (poison.optional info.nulls.OUTPUT_NULLABLE) (.cons (text ")")
      (.cons ((text " END)").optional info.nulls.PROBE_NULLABLE) .nil)))))).congr fun path => ?_
  rw [subPlanPrinted, if_pos any, sights_append]
  ext x
  have poisoned := @subset path x
  simp only [List.mem_cons, List.not_mem_nil, or_false, exists_eq_or_imp, exists_eq_left,
    Set.mem_ofPred_eq, Set.mem_union, Set.mem_empty_iff_false, and_false, false_or]
  tauto

end

/-! ## Expressions -/

theorem emits_deparseNot {arg : Emitter} {printed : Printed} (emits : Emits cat arg printed) :
    Emits cat (deparseNot arg) printed :=
  fun _ _ _ _ _ _ fits => prints_between fits.buf (emits _ _ _ _ _ _ fits) _ _

theorem emits_deparseSortGroupClause (e : Expr) {emit : Emitter} {printed : Printed}
    (emits : Emits cat emit printed) : Emits cat (deparseSortGroupClause e emit) printed := by
  have parenthesized : Emits cat (fun context =>
      perform [appendText context.buf "(", emit context, appendText context.buf ")"]) printed :=
    fun _ _ _ _ _ _ fits => prints_between fits.buf (emits _ _ _ _ _ _ fits) _ _
  cases e with
  | Var node => exact emits
  | Param node => exact parenthesized
  | node args unseen template => exact parenthesized
  | NOT arg => exact parenthesized
  | SubPlan info args probe targetList quals groupClause havingQual => exact parenthesized

theorem emits_sortGroupClauses {exprs : List Expr}
    (emits : AllEmit cat (deparseExprs cat exprs) (printedList exprs)) :
    AllEmit cat (List.zipWith deparseSortGroupClause exprs (deparseExprs cat exprs))
      (printedList exprs) := by
  induction exprs with
  | nil => exact .nil
  | cons e exprs ih =>
      rw [deparseExprs, printedList] at emits ⊢
      cases emits with
      | cons first rest => exact .cons (emits_deparseSortGroupClause e first) (ih rest)

mutual

theorem emits_deparseExpr : ∀ e : Expr, Emits cat (deparseExpr cat e) e.printed
  | .Var node => by
      rw [deparseExpr, Expr.printed]
      exact emits_deparseVar node
  | .Param node => by
      rw [deparseExpr, Expr.printed]
      exact emits_deparseParam node
  | .node args unseen template => by
      rw [deparseExpr, Expr.printed]
      exact emits_appendTemplate
        (List.rel_append (emits_deparseExprs args) (emits_deparseExprs unseen)) template
  | .NOT (.SubPlan info args probe targetList quals groupClause havingQual) => by
      rw [deparseExpr, Expr.printed, Expr.printed]
      have emits : SubPlanParts.AllEmit cat
          ⟨deparseExprs cat args, deparseExprs cat probe, deparseExprs cat targetList,
            deparseExprs cat quals,
            List.zipWith deparseSortGroupClause groupClause (deparseExprs cat groupClause),
            deparseExprs cat havingQual⟩
          ⟨printedList args, printedList probe, printedList targetList, printedList quals,
            printedList groupClause, printedList havingQual⟩ :=
        ⟨emits_deparseExprs args, emits_deparseExprs probe, emits_deparseExprs targetList,
          emits_deparseExprs quals, emits_sortGroupClauses (emits_deparseExprs groupClause),
          emits_deparseExprs havingQual⟩
      by_cases guarded : info.subLinkType = .ANY ∧ info.guarded
      · simp only [if_pos guarded]
        exact emits_deparseGuardedNotIn emits guarded.1
      · simp only [if_neg guarded]
        exact emits_deparseNot (emits_deparseSubPlan emits)
  | .NOT (.Var node) => by
      rw [deparseExpr, Expr.printed]
      exact emits_deparseNot (emits_deparseExpr (.Var node))
      nofun
  | .NOT (.Param node) => by
      rw [deparseExpr, Expr.printed]
      exact emits_deparseNot (emits_deparseExpr (.Param node))
      nofun
  | .NOT (.node args unseen template) => by
      rw [deparseExpr, Expr.printed]
      exact emits_deparseNot (emits_deparseExpr (.node args unseen template))
      nofun
  | .NOT (.NOT arg) => by
      rw [deparseExpr, Expr.printed]
      exact emits_deparseNot (emits_deparseExpr (.NOT arg))
      nofun
  | .SubPlan info args probe targetList quals groupClause havingQual => by
      rw [deparseExpr, Expr.printed]
      exact emits_deparseSubPlan
        ⟨emits_deparseExprs args, emits_deparseExprs probe, emits_deparseExprs targetList,
          emits_deparseExprs quals, emits_sortGroupClauses (emits_deparseExprs groupClause),
          emits_deparseExprs havingQual⟩

theorem emits_deparseExprs : ∀ exprs : List Expr,
    AllEmit cat (deparseExprs cat exprs) (printedList exprs)
  | [] => by
      rw [deparseExprs, printedList]
      exact .nil
  | e :: exprs => by
      rw [deparseExprs, printedList]
      exact .cons (emits_deparseExpr e) (emits_deparseExprs exprs)

end

/-! ## Statements -/

theorem fits_selectContext {buf : Nat} (live : buf ∈ L) (scanrel : RelOptInfo Expr)
    (has_inlined_subplan : Bool) :
    Fits cat before L scanrel has_inlined_subplan
      (selectContext buf scanrel has_inlined_subplan) .outer :=
  ⟨live, rfl, rfl, fun _ => rfl, fun _ => .none⟩

/-- What prints a FROM clause, and the listing of it. -/
def PlacesFrom (cat : Catalog) (fromText : Bool → Nat → Action)
    (printouts : Bool → Path → List Printout) : Prop :=
  ∀ before L use_alias buf, buf ∈ L → Prints cat before L (fromText use_alias buf)
    fun path => printoutSights cat (printouts use_alias path)

theorem printoutSights_cons (printout : Printout) (printouts : List Printout) :
    printoutSights cat (printout :: printouts) =
      printout.sights cat ∪ printoutSights cat printouts := by
  ext x
  simp [printoutSights]

theorem printoutSights_append (a b : List Printout) :
    printoutSights cat (a ++ b) = printoutSights cat a ∪ printoutSights cat b := by
  ext x
  simp [printoutSights, or_and_right, exists_or]

theorem printoutSights_entry (path : Path) (rel : RelOptInfo Expr) (entry : FromEntry) :
    (entryPrintout path rel entry).sights cat = {.entry path entry} :=
  sights_singleton (sighting_entry entry none path)

section

variable {scanrel : RelOptInfo Expr} {has_inlined_subplan : Bool}

theorem emits_selectList {emits : List Emitter} {printed : List Printed}
    (each : AllEmit cat emits printed) : Emits cat (selectList emits) (printedBy printed) := by
  intro before L scanrel has_inlined_subplan context around fits
  cases each with
  | nil => exact prints_text fits.buf "NULL"
  | cons first rest => exact emits_appendList (.cons first rest) _ _ _ _ _ _ fits

/-- A SELECT prints its clauses and its FROM clause inside its own FROM list. -/
theorem prints_deparseSelect {fromText : Bool → Nat → Action}
    {printouts : Bool → Path → List Printout} (from_ : PlacesFrom cat fromText printouts)
    (scanrel : RelOptInfo Expr) (has_inlined_subplan : Bool) {targets : List Emitter}
    {targetsPrinted : List Printed} (emits : AllEmit cat targets targetsPrinted)
    (quals : List Expr) (rest : Emitter) {restPrinted : List Occurrence}
    {buf : Nat} (live : buf ∈ L)
    (emitsRest : Prints cat before L (rest (selectContext buf scanrel has_inlined_subplan))
      (sights cat scanrel has_inlined_subplan restPrinted)) :
    Prints cat before L
      (deparseSelect cat fromText scanrel has_inlined_subplan targets quals rest buf) fun path =>
        printoutSights cat (selectPrintouts printouts scanrel has_inlined_subplan
          (printedBy targetsPrinted .outer ++ clausesPrinted quals ++ restPrinted) path) := by
  have fits : Fits cat before L scanrel has_inlined_subplan
      (selectContext buf scanrel has_inlined_subplan) .outer :=
    fits_selectContext live scanrel has_inlined_subplan
  have clauses := Prints.perform (.cons (Prints.appendText live "SELECT ")
    (.cons (emits_selectList emits _ _ _ _ _ _ fits) (.cons (Prints.appendText live " FROM ")
      (.cons (from_ before L (useAlias scanrel has_inlined_subplan) buf live) (.cons
        (emits_appendClause " WHERE " (emits_deparseExprs quals)
          (emits_appendConditions (emits_deparseExprs quals)) _ _ _ _ _ _ fits)
        (.cons emitsRest .nil))))))
  refine (clauses.inSelect _).congr fun path => ?_
  rw [selectPrintouts, printoutSights_cons, Printout.sights]
  simp only [sights_append, clausesPrinted]
  ext x
  simp only [List.mem_cons, List.not_mem_nil, or_false, exists_eq_or_imp, exists_eq_left,
    Set.mem_ofPred_eq, Set.mem_union, Set.mem_empty_iff_false, false_or]
  rw [selectFrom]
  tauto

end

theorem places_deparseRangeTblRef {fromText : Bool → Nat → Action}
    {printouts : Bool → Path → List Printout} (from_ : PlacesFrom cat fromText printouts)
    (rel : RelOptInfo Expr) (make_subquery : Bool) {buf : Nat} (live : buf ∈ L) :
    Prints cat before L (deparseRangeTblRef cat fromText rel make_subquery buf) fun path =>
      printoutSights cat (rangeTblRefPrintouts printouts rel make_subquery path) := by
  cases make_subquery with
  | false => exact from_ before L true buf live
  | true =>
      have nothing : Prints cat before L id
          (sights cat rel (containSubplansList rel.remote_conds) []) :=
        Prints.nothing.congr fun path => (sights_nil path).symm
      have select := prints_deparseSelect from_ rel (containSubplansList rel.remote_conds)
        (emits_deparseExprs rel.reltarget) rel.remote_conds (fun _ => id) live nothing
      refine ((Prints.appendText live "(").comp (select.comp ((Prints.appendText live ")").comp
        (Prints.appendEntry live (subqueryEntry rel))))).congr fun path => ?_
      rw [rangeTblRefPrintouts, if_pos rfl, printoutSights_cons, printoutSights_entry,
        Set.empty_union, Set.empty_union, Set.union_comm, List.append_nil]
      rfl

/-- What a join prints after its inputs, their text included. -/
theorem prints_appendJoin (foreignrel : RelOptInfo Expr) (jointype : JoinType)
    (joinclauses : List Expr) {join_sql_o join_sql_i : List Token}
    (outer : Refers cat before join_sql_o) (inner : Refers cat before join_sql_i) {buf : Nat}
    (live : buf ∈ L) :
    Prints cat before L
      (appendJoin cat foreignrel jointype joinclauses join_sql_o join_sql_i buf) fun path =>
        sights cat foreignrel false (clausesPrinted joinclauses) path ∪
          sightings ([join_sql_o] ++ [join_sql_i]).flatten := by
  have clauses : Prints cat before L
      (if joinclauses.isEmpty then appendText buf "TRUE"
        else appendConditions (deparseExprs cat joinclauses) (selectContext buf foreignrel false))
      (sights cat foreignrel false (clausesPrinted joinclauses)) := by
    cases joinclauses with
    | nil => exact prints_text live "TRUE"
    | cons clause clauses =>
        exact emits_appendConditions (emits_deparseExprs (clause :: clauses)) _ _ _ _ _ _
          (fits_selectContext live foreignrel false)
  refine (Prints.perform (.cons (Prints.appendText live " ") (.cons (Prints.append live outer)
    (.cons (Prints.appendText live (joinText jointype)) (.cons (Prints.append live inner)
      (.cons (Prints.appendText live " ON (") (.cons clauses
        (.cons (Prints.appendText live ")") .nil)))))))).congr fun path => ?_
  ext x
  simp only [List.mem_cons, List.not_mem_nil, or_false, exists_eq_or_imp, exists_eq_left,
    Set.mem_ofPred_eq, Set.mem_union, Set.mem_empty_iff_false, false_or, List.flatten_cons,
    List.flatten_nil, List.append_nil, List.cons_append, List.nil_append, sightings_append]
  tauto

/-- The inputs of a join go to buffers of their own, which are copied. -/
theorem places_deparseFromExprForRel (rel : RelOptInfo Expr) :
    PlacesFrom cat (deparseFromExprForRel cat rel) (fromPrintouts rel) := by
  induction rel with
  | base relid dbname relname reltarget remote_conds local_conds =>
      intro before L use_alias buf live
      refine (Prints.appendEntry live (tableEntry relid use_alias)).congr fun path => ?_
      rw [fromPrintouts, printoutSights_cons, printoutSights_entry]
      simp [printoutSights]
  | join i t r l jointype joinclauses make_outerrel_subquery make_innerrel_subquery outerrel
      innerrel outer inner =>
      intro before L use_alias buf live s after used numbered
      have first := printing_intoBuffer (fun b => places_deparseRangeTblRef outer outerrel
        make_outerrel_subquery (Set.mem_insert b L)) s after used numbered
      have after' := after.trans first.params
      have used' := fun b member => Nat.lt_of_lt_of_le (used b member) first.next
      have second := printing_intoBuffer (fun b => places_deparseRangeTblRef inner innerrel
        make_innerrel_subquery (Set.mem_insert b L)) _ after' used' first.numbered
      have inputs := first.trans second
      have usedAfter := fun b member => Nat.lt_of_lt_of_le (used b member) inputs.next
      have rest := prints_appendJoin (.join i t r l jointype joinclauses make_outerrel_subquery
        make_innerrel_subquery outerrel innerrel) jointype joinclauses
        (inputs.refers _ (List.mem_append_left _ (List.mem_singleton_self _)))
        (inputs.refers _ (List.mem_append_right _ (List.mem_singleton_self _))) live _
        List.prefix_rfl usedAfter inputs.numbered
      rw [first.path] at inputs
      rw [inputs.path] at rest
      have run := inputs.spend rest
      simp only [fromPrintouts, printoutSights_cons, printoutSights_append]
      rw [Set.union_comm]
      exact run

theorem emits_deparseTargetList (relid : Nat) (attrs_used : List Int) :
    AllEmit cat (deparseTargetList cat relid attrs_used)
      (attrs_used.map fun attno _ => [⟨.fetched relid attno, none, []⟩]) := by
  rw [AllEmit, deparseTargetList, List.forall₂_map_left_iff, List.forall₂_map_right_iff,
    List.forall₂_same]
  intro attno _ before L scanrel has_inlined_subplan context around fits
  exact (Prints.deparseColumnRef fits.buf _ _ _).congr fun path =>
    (sights_singleton (by simp [Occurrence.sighting])).symm

theorem prints_deparseTail (stmt : SelectStmt) {buf : Nat} (live : buf ∈ L)
    (scanrel : RelOptInfo Expr) (has_inlined_subplan : Bool) :
    Prints cat before L (deparseTail cat stmt (selectContext buf scanrel has_inlined_subplan))
      (sights cat scanrel has_inlined_subplan stmt.tailPrinted) := by
  have fits : Fits cat before L scanrel has_inlined_subplan
      (selectContext buf scanrel has_inlined_subplan) .outer :=
    fits_selectContext live scanrel has_inlined_subplan
  have clause (keyword : String) (exprs : List Expr) := emits_appendClause keyword
    (emits_deparseExprs exprs) (emits_appendList (emits_deparseExprs exprs)) before L scanrel
    has_inlined_subplan (selectContext buf scanrel has_inlined_subplan) .outer fits
  have keys : AllEmit cat (List.zipWith deparseSortGroupClause stmt.groupClause
      (deparseExprs cat stmt.groupClause)) (printedList stmt.groupClause) :=
    emits_sortGroupClauses (emits_deparseExprs stmt.groupClause)
  have grouping : Prints cat before L
      (if stmt.IS_UPPER_REL then
        perform [appendClause " GROUP BY "
            (List.zipWith deparseSortGroupClause stmt.groupClause
              (deparseExprs cat stmt.groupClause))
            (appendList (List.zipWith deparseSortGroupClause stmt.groupClause
              (deparseExprs cat stmt.groupClause)))
            (selectContext buf scanrel has_inlined_subplan),
          appendClause " HAVING " (deparseExprs cat stmt.remote_conds)
            (appendConditions (deparseExprs cat stmt.remote_conds))
            (selectContext buf scanrel has_inlined_subplan)]
        else id)
      (sights cat scanrel has_inlined_subplan
        (if stmt.IS_UPPER_REL then
          clausesPrinted stmt.groupClause ++ clausesPrinted stmt.remote_conds else [])) := by
    cases stmt.IS_UPPER_REL with
    | false => exact Prints.nothing.congr fun path => (sights_nil path).symm
    | true =>
        refine (prints_listed (.cons
          (emits_appendClause " GROUP BY " keys (emits_appendList keys) _ _ _ _ _ _ fits)
          (.cons (emits_appendClause " HAVING " (emits_deparseExprs stmt.remote_conds)
            (emits_appendConditions (emits_deparseExprs stmt.remote_conds)) _ _ _ _ _ _ fits)
            .nil))).congr fun path => ?_
        simp [clausesPrinted]
  refine (prints_listed (.cons grouping (.cons (clause " ORDER BY " stmt.pathkeys)
    (.cons (clause " LIMIT " stmt.limitCount) (.cons (clause " OFFSET " stmt.limitOffset)
      .nil))))).congr fun path => ?_
  simp [SelectStmt.tailPrinted, clausesPrinted]

theorem numbered_initial : Numbered cat .initial where
  nodup := List.nodup_nil
  refers _ _ _ _ member := absurd member List.not_mem_nil
  unused _ _ := rfl

theorem emits_deparseSelectSql (stmt : SelectStmt) :
    ∃ targets, AllEmit cat (deparseSelectSql cat stmt) targets ∧
      printedBy targets .outer = stmt.selectListPrinted := by
  rw [deparseSelectSql, SelectStmt.selectListPrinted]
  split
  · exact ⟨_, emits_deparseExprs stmt.tlist, rfl⟩
  · refine ⟨_, emits_deparseTargetList stmt.scanrel.relation_index stmt.attrs_used, ?_⟩
    rw [printedBy, List.flatMap_map]
    exact List.map_eq_flatMap.symm

/-- A statement prints what is listed of it. -/
theorem printing_statement (cat : Catalog) (stmt : SelectStmt) :
    Printing cat {0} (printoutSights cat stmt.printouts) .initial []
      (clickhouseGetForeignPlan cat stmt) := by
  have live : 0 ∈ ({0} : Set Nat) := Set.mem_singleton 0
  have used : ∀ b ∈ ({0} : Set Nat), b < State.initial.next := by
    intro b member
    rw [Set.mem_singleton_iff.mp member]
    exact Nat.one_pos
  obtain ⟨targets, emits, listed⟩ := @emits_deparseSelectSql cat stmt
  have run := prints_deparseSelect (places_deparseFromExprForRel stmt.scanrel) stmt.scanrel
    stmt.has_inlined_subplan emits stmt.quals (deparseTail cat stmt) live
    (prints_deparseTail stmt live stmt.scanrel stmt.has_inlined_subplan) .initial
    List.prefix_rfl used numbered_initial
  rw [listed] at run
  exact run

end PgClickhouse.Emit
