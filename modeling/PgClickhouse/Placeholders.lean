import PgClickhouse.ParamDelivery
import PgClickhouse.Printing

/-!
# Numbers of placeholders

Parameters get their numbers in the order they are printed in.  Whatever is printed twice or
captured before, a statement has placeholders for the entries of `params_list` and for
nothing else, and the drivers send the values in the same order.
-/

namespace PgClickhouse.Emit

variable {cat : Catalog}

/-- A placeholder for `n` stands among some pieces of text. -/
def Shows (tokens : List Token) (n : Nat) : Prop :=
  ∃ type node, Token.placeholder n type node ∈ tokens

/-- The text of a statement shows what is listed of it. -/
theorem sightings_statementText (stmt : SelectStmt) :
    sightings (statementText cat stmt) = printoutSights cat stmt.printouts := by
  have seen := (printing_statement cat stmt).seen
  simpa [Seen, statementText, State.initial] using seen

/-- Every entry of `params_list` has a placeholder. -/
theorem shown_of_mem (stmt : SelectStmt) {node : ParamExpr}
    (member : node ∈ (clickhouseGetForeignPlan cat stmt).params_list) :
    ∃ n type, Token.placeholder n type node ∈ statementText cat stmt := by
  have printed := ((printing_statement cat stmt).nodes node).mp member
  rcases printed with early | printed
  · exact absurd early List.not_mem_nil
  · rw [← sightings_statementText] at printed
    obtain ⟨token, member, shows⟩ := printed
    cases token with
    | text text => cases shows
    | placeholder n type node' =>
        cases shows
        exact ⟨n, type, member⟩
    | column path qualifier name column => cases shows
    | entry path entry => cases shows

/-- The placeholders of a statement have exactly the numbers of the entries of
`params_list`; each is printed for its entry, with the type of that entry, equal nodes
share a number and different ones do not, and on both drivers the server reads under each
number the value of that entry, of a NULL the empty text. -/
theorem statement_numbered (stmt : SelectStmt) :
    let params_list := (clickhouseGetForeignPlan cat stmt).params_list
    let text := statementText cat stmt
    (∀ n, Shows text n ↔ 0 < n ∧ n ≤ params_list.length) ∧
    (∀ n type node, Token.placeholder n type node ∈ text →
      params_list[n - 1]? = some node ∧ type = node.remote_type cat) ∧
    (∀ n type node n' type' node', Token.placeholder n type node ∈ text →
      Token.placeholder n' type' node' ∈ text → (n = n' ↔ node = node')) ∧
    ∀ (ExecEvalExpr : ParamExpr → Option ParamDatum) (values : ParamValues),
      values.val = params_list.map ExecEvalExpr → ∀ n node, params_list[n]? = some node →
        ∀ t conn query_id overrides stream_chunks sql settings,
          let received := some (some (((ExecEvalExpr node).map ParamDatum.value).getD []))
          form_param (n + 1)
              (paramForm t conn query_id overrides stream_chunks sql settings values) =
            received ∧
          native_param (n + 1) (ch_binary_query_params (paramQuery sql settings values)) =
            received := by
  have run := printing_statement cat stmt
  intro params_list text
  have refers : Refers cat params_list text := run.numbered.refers 0
  refine ⟨?_, ?_, ?_, ?_⟩
  · intro n
    constructor
    · rintro ⟨type, node, member⟩
      obtain ⟨positive, entry, -⟩ := refers n type node member
      have below := (List.getElem?_eq_some_iff.mp entry).1
      omega
    · rintro ⟨positive, upTo⟩
      have below : n - 1 < params_list.length := by omega
      obtain ⟨n', type, member⟩ := shown_of_mem stmt (List.getElem_mem below)
      obtain ⟨positive', entry, -⟩ := refers n' type _ member
      obtain ⟨below', same⟩ := List.getElem?_eq_some_iff.mp entry
      have index := run.numbered.nodup.getElem_inj_iff.mp same
      have number : n' = n := by omega
      exact ⟨type, _, number ▸ member⟩
  · intro n type node member
    exact (refers n type node member).2
  · intro n type node n' type' node' member member'
    obtain ⟨positive, entry, -⟩ := refers n type node member
    obtain ⟨positive', entry', -⟩ := refers n' type' node' member'
    obtain ⟨below, at_⟩ := List.getElem?_eq_some_iff.mp entry
    obtain ⟨below', at'⟩ := List.getElem?_eq_some_iff.mp entry'
    constructor
    · rintro rfl
      exact at_.symm.trans at'
    · rintro rfl
      have same := run.numbered.nodup.getElem_inj_iff.mp (at_.trans at'.symm)
      omega
  · intro ExecEvalExpr values evaluated n node entry t conn query_id overrides stream_chunks sql
      settings
    have given : values.val[n]? = some (ExecEvalExpr node) := by
      rw [evaluated, List.getElem?_map, entry, Option.map_some]
    exact ⟨form_param_eq t conn query_id overrides stream_chunks sql settings values given,
      native_param_eq sql settings values given⟩

/-- `WHERE ((c3 = {p1:String})) AND ((c4 = {p2:String}))`, with one parameter used twice. -/
theorem statement_numbered_repeated :
    let cat : Catalog := ⟨fun _ _ => ascii "String", fun _ _ => ascii "c", fun _ => [],
      fun _ => [ascii "c"]⟩
    let eq : Template := ⟨[], [.text "(", .operand 0, .text " = ", .operand 1, .text ")"],
      fun k below => absurd below (Nat.not_lt_zero k)⟩
    let column (attno : Int) : Expr := .Var ⟨1, attno, 0, 25, -1, 100, []⟩
    let param (paramid : Nat) : Expr := .Param ⟨.PARAM_EXTERN, paramid, 25, -1, 100⟩
    let stmt : SelectStmt :=
      { scanrel := .base 1 (ascii "d") (ascii "t") [] [] []
        IS_UPPER_REL := false
        attrs_used := [1]
        tlist := []
        remote_conds := [.node [column 3, param 7] [] eq, .node [column 4, param 9] [] eq,
          .node [column 5, param 7] [] eq]
        groupClause := []
        pathkeys := []
        limitCount := []
        limitOffset := [] }
    let values : ParamValues := ⟨[some (.text [97]), none], by decide⟩
    let conn : ch_http_connection_t := ⟨ascii "http://localhost:8123/", none⟩
    let query_id : QueryId := ⟨ascii "c41d7e52-6f08-4b3a-9a2d-5e81f7a0b3c6", by decide +kernel⟩
    (Shows (statementText cat stmt) 2 ∧ ¬ Shows (statementText cat stmt) 3) ∧
      form_param 1 (paramForm percentEncoded conn query_id [] true [] [] values) =
        some (some [97]) := by
  intro cat eq column param stmt values conn query_id
  have params : (clickhouseGetForeignPlan cat stmt).params_list =
      [.Param ⟨.PARAM_EXTERN, 7, 25, -1, 100⟩, .Param ⟨.PARAM_EXTERN, 9, 25, -1, 100⟩] := by
    decide
  obtain ⟨numbers, -, -, sent⟩ := @statement_numbered cat stmt
  rw [params] at numbers sent
  refine ⟨⟨(numbers 2).mpr (by decide), fun shows => ?_⟩, ?_⟩
  · have upTo := ((numbers 3).mp shows).2
    exact absurd upTo (by decide)
  · exact (sent (fun
        | .Param ⟨.PARAM_EXTERN, 7, _, _, _⟩ => some (.text [97])
        | _ => none) values rfl 0 _ rfl percentEncoded conn query_id [] true [] []).1

end PgClickhouse.Emit
