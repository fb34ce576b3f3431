import PgClickhouse.Basic

/-!
# The options string

`option.c` reads a settings text of the form `key value, key 'value', ...` into a
list of `DefElem` cells.  The C code copies the text and walks it with two pointers,
unescaping a value in place; here a scanner takes the unread bytes and returns what
it read with the bytes that are left.

* `parse_loop_of_fuel_ge`: every round of the outer loop consumes a byte, so the
  length of the text bounds the rounds and `chfdw_parse_options` never stops early.
-/

namespace PgClickhouse

/-- The errors `chfdw_parse_options` raises. -/
inductive OptionsError
  | missingComma (pname : Bytes)
  | missingValue (pname : Bytes)
  | unterminated
  deriving Repr, DecidableEq

/-- The message of each error. -/
def OptionsError.errmsg : OptionsError → Bytes
  | .missingComma pname =>
      ascii "pg_clickhouse: missing comma after \"" ++ pname ++
        ascii "\" value in options string"
  | .missingValue pname =>
      ascii "pg_clickhouse: missing value for parameter \"" ++ pname ++
        ascii "\" in options string"
  | .unterminated => ascii "pg_clickhouse: unterminated quoted string in options string"

/-- The bytes before the first blank, and what follows the blanks after them. -/
def parameter_name : Bytes → Bytes × Bytes
  | [] => ([], [])
  | c :: cp =>
      if isspace c then ([], cp.dropWhile isspace)
      else (c :: (parameter_name cp).1, (parameter_name cp).2)

/-- A value without quotes: up to a comma, which is consumed, or up to blanks, which
must lead to a comma or to the end.  That comma stays unread. -/
def unquoted_value (pname : Bytes) : Bytes → Except OptionsError (Bytes × Bytes)
  | [] => .ok ([], [])
  | c :: cp =>
      if isspace c then
        match cp.dropWhile isspace with
        | [] => .ok ([], [])
        | d :: cp => if d = 44 then .ok ([], d :: cp) else .error (.missingComma pname)
      else if c = 44 then .ok ([], cp)
      else if c = 92 then
        match cp with
        | [] => .ok ([], [])
        | d :: cp => (unquoted_value pname cp).map fun (pval, cp) => (d :: pval, cp)
      else (unquoted_value pname cp).map fun (pval, cp) => (c :: pval, cp)

/-- The rest of a quoted value, after its opening quote. -/
def quoted_value : Bytes → Except OptionsError (Bytes × Bytes)
  | [] => .error .unterminated
  | c :: cp =>
      if c = 92 then
        match cp with
        | [] => .error .unterminated
        | d :: cp => (quoted_value cp).map fun (pval, cp) => (d :: pval, cp)
      else if c = 39 then .ok ([], cp)
      else (quoted_value cp).map fun (pval, cp) => (c :: pval, cp)

/-- After a quoted value: a comma, which is consumed, or the end. -/
def trailing_comma (pname : Bytes) (cp : Bytes) : Except OptionsError Bytes :=
  match cp.dropWhile isspace with
  | [] => .ok []
  | c :: cp => if c = 44 then .ok cp else .error (.missingComma pname)

/-- The value of one parameter, quoted or not. -/
def parameter_value (pname : Bytes) (cp : Bytes) : Except OptionsError (Bytes × Bytes) :=
  match cp with
  | 39 :: cp => do
      let (pval, cp) ← quoted_value cp
      let cp ← trailing_comma pname cp
      pure (pval, cp)
  | cp => do
      let (pval, cp) ← unquoted_value pname cp
      if pval = [] then .error (.missingValue pname) else pure (pval, cp)

/-- The outer loop, for at most `fuel` parameters. -/
def parse_loop : Nat → Bytes → Except OptionsError (List DefElem)
  | 0, _ => .ok []
  | fuel + 1, cp =>
      match cp.dropWhile isspace with
      | [] => .ok []
      | c :: cp => do
          let name := parameter_name (c :: cp)
          let (pval, cp) ← parameter_value name.1 name.2
          let options ← parse_loop fuel cp
          pure (⟨name.1, some pval⟩ :: options)

/-- Parse ClickHouse settings as key/value pairs. -/
def chfdw_parse_options (options_string : Bytes) : Except OptionsError (List DefElem) :=
  parse_loop options_string.length options_string

/-- Every parameter read has a value. -/
theorem isSome_arg_of_parse_loop {fuel : Nat} {cp : Bytes} {options : List DefElem}
    (h : parse_loop fuel cp = .ok options) : ∀ d ∈ options, d.arg.isSome := by
  induction fuel generalizing cp options with
  | zero => cases h; simp
  | succ fuel ih =>
      rw [parse_loop] at h
      split at h
      · cases h; simp
      · rename_i c text dropped
        cases hv : parameter_value (parameter_name (c :: text)).1
            (parameter_name (c :: text)).2 with
        | error e => simp [bind, Except.bind, hv] at h
        | ok read =>
            cases hl : parse_loop fuel read.2 with
            | error e => simp [bind, Except.bind, hv, hl] at h
            | ok later =>
                simp only [bind, Except.bind, hv, hl, pure, Except.pure,
                  Except.ok.injEq] at h
                subst h
                intro d member
                rcases List.mem_cons.mp member with rfl | member
                · rfl
                · exact ih hl d member

theorem isSome_arg_of_chfdw_parse_options {text : Bytes} {options : List DefElem}
    (h : chfdw_parse_options text = .ok options) : ∀ d ∈ options, d.arg.isSome :=
  isSome_arg_of_parse_loop h

/-! ## The bound on the rounds -/

theorem dropWhile_length_le (p : UInt8 → Bool) (cp : Bytes) :
    (cp.dropWhile p).length ≤ cp.length :=
  (List.dropWhile_suffix p).length_le

theorem parameter_name_length_le (cp : Bytes) : (parameter_name cp).2.length ≤ cp.length := by
  induction cp with
  | nil => exact le_rfl
  | cons c cp ih =>
      rw [parameter_name]
      split
      · exact (dropWhile_length_le _ _).trans (Nat.le_succ _)
      · exact ih.trans (Nat.le_succ _)

/-- A parameter's name takes at least one byte. -/
theorem parameter_name_length_lt {c : UInt8} (cp : Bytes) :
    (parameter_name (c :: cp)).2.length < (c :: cp).length := by
  rw [parameter_name]
  split
  · exact Nat.lt_succ_of_le (dropWhile_length_le _ _)
  · exact Nat.lt_succ_of_le (parameter_name_length_le cp)

/-- A scan that succeeds behind a byte leaves what the inner scan left. -/
theorem length_le_of_map_ok {d : UInt8} {scan : Except OptionsError (Bytes × Bytes)} {n m : Nat}
    {pval rest : Bytes} (grows : n ≤ m)
    (inner : ∀ {pval rest : Bytes}, scan = .ok (pval, rest) → rest.length ≤ n)
    (h : (scan.map fun (pval, cp) => (d :: pval, cp)) = .ok (pval, rest)) : rest.length ≤ m := by
  cases scan with
  | error e => cases h
  | ok read =>
      obtain ⟨value, left⟩ := read
      simp only [Except.map, Except.ok.injEq, Prod.mk.injEq] at h
      exact h.2 ▸ (inner rfl).trans grows

theorem unquoted_value_length_le {pname cp pval rest : Bytes}
    (h : unquoted_value pname cp = .ok (pval, rest)) : rest.length ≤ cp.length := by
  fun_induction unquoted_value pname cp generalizing pval rest with
  | case1 => cases h; exact le_rfl
  | case2 => cases h; exact Nat.zero_le _
  | case3 c cp blank left dropped =>
      cases h
      have shorter := dropWhile_length_le isspace cp
      rw [dropped] at shorter
      exact shorter.trans (Nat.le_succ _)
  | case4 => cases h
  | case5 => cases h; exact Nat.le_succ _
  | case6 => cases h; exact Nat.zero_le _
  | case7 d cp blank comma ih =>
      exact length_le_of_map_ok (by simp only [List.length_cons]; omega) ih h
  | case8 c cp blank comma escape ih =>
      exact length_le_of_map_ok (Nat.le_succ _) ih h

theorem quoted_value_length_le {cp pval rest : Bytes}
    (h : quoted_value cp = .ok (pval, rest)) : rest.length ≤ cp.length := by
  fun_induction quoted_value cp generalizing pval rest with
  | case1 => cases h
  | case2 => cases h
  | case3 d cp ih =>
      exact length_le_of_map_ok (by simp only [List.length_cons]; omega) ih h
  | case4 => cases h; exact Nat.le_succ _
  | case5 c cp escape quote ih => exact length_le_of_map_ok (Nat.le_succ _) ih h

theorem trailing_comma_length_le {pname cp rest : Bytes}
    (h : trailing_comma pname cp = .ok rest) : rest.length ≤ cp.length := by
  have shorter := dropWhile_length_le isspace cp
  unfold trailing_comma at h
  split at h
  · cases h; exact Nat.zero_le _
  · rename_i dropped
    rw [dropped] at shorter
    split at h
    · cases h; exact (Nat.le_succ _).trans shorter
    · cases h

theorem parameter_value_length_le {pname cp pval rest : Bytes}
    (h : parameter_value pname cp = .ok (pval, rest)) : rest.length ≤ cp.length := by
  unfold parameter_value at h
  split at h
  · rename_i cp
    cases hq : quoted_value cp with
    | error e => rw [hq] at h; cases h
    | ok read =>
        rw [hq] at h
        cases ht : trailing_comma pname read.2 with
        | error e => simp [bind, Except.bind, ht] at h
        | ok left =>
            simp only [bind, Except.bind, ht, pure, Except.pure, Except.ok.injEq,
              Prod.mk.injEq] at h
            have quoted := quoted_value_length_le hq
            have trailing := trailing_comma_length_le ht
            rw [List.length_cons, ← h.2]
            omega
  · cases hu : unquoted_value pname cp with
    | error e => rw [hu] at h; cases h
    | ok read =>
        simp only [hu, bind, Except.bind] at h
        split at h
        · cases h
        · cases h; exact unquoted_value_length_le hu

/-- Two bounds that both cover the unread text give the same result. -/
theorem parse_loop_eq_of_fuel_ge {fuel other : Nat} {cp : Bytes} (enough : cp.length ≤ fuel)
    (otherEnough : cp.length ≤ other) : parse_loop fuel cp = parse_loop other cp := by
  induction fuel generalizing other cp with
  | zero =>
      obtain rfl := List.length_eq_zero_iff.mp (Nat.le_zero.mp enough)
      cases other <;> rfl
  | succ fuel ih =>
      cases other with
      | zero =>
          obtain rfl := List.length_eq_zero_iff.mp (Nat.le_zero.mp otherEnough)
          rfl
      | succ other =>
          have shorter := dropWhile_length_le isspace cp
          rw [parse_loop, parse_loop]
          split
          · rfl
          · rename_i c text dropped
            rw [dropped] at shorter
            have named := @parameter_name_length_lt c text
            cases hv : parameter_value (parameter_name (c :: text)).1
                (parameter_name (c :: text)).2 with
            | error e => simp only [bind, Except.bind, hv]
            | ok read =>
                have valued := parameter_value_length_le hv
                have same : parse_loop fuel read.2 = parse_loop other read.2 :=
                  ih (by omega) (by omega)
                simp only [bind, Except.bind, hv, same]

/-- Rounds beyond the length of the unread text change nothing. -/
theorem parse_loop_of_fuel_ge {fuel : Nat} {cp : Bytes} (enough : cp.length ≤ fuel) :
    parse_loop fuel cp = chfdw_parse_options cp :=
  parse_loop_eq_of_fuel_ge enough (Nat.le_refl _)

example : chfdw_parse_options (ascii "final 0, join_algorithm 'a, b',x 1\\,2") =
    .ok [⟨ascii "final", some (ascii "0")⟩, ⟨ascii "join_algorithm", some (ascii "a, b")⟩,
      ⟨ascii "x", some (ascii "1,2")⟩] := by decide +kernel

end PgClickhouse
