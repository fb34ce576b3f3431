import PgClickhouse.CustomObjects
import PgClickhouse.Runs

/-!
# The cache of custom objects

Functions, operators and types share one table by `Oid`, though an `Oid` is unique only in
its own catalog.  The entry of a function or an operator is entered before the lookups that
classify it, and stays where one of them raises.

Main facts:

* `triple_type`, `triple_function`, `triple_operator` : what a classifier answers, and that
  the entries of the table stay answers, if no lookup raises after the entry is entered
* `cache_transparent` : in every run in which identifiers are not shared, no lookup raises at
  that point, and no changed object is asked for again before its entry is dropped, the
  answers are those of an empty cache
-/

namespace PgClickhouse.CustomObjects

open Raising

/-! ## Answers -/

/-- The extension of an object. -/
def Catalog.extname (catalog : Catalog) (classId : Class) (oid : Nat) : Option Bytes :=
  catalog.get_extension_name (catalog.getExtensionOfObject classId oid)

/-- A type, or the element type of an array. -/
def Catalog.member (catalog : Catalog) (typeoid : Nat) : Nat :=
  if catalog.get_element_type typeoid ≠ 0 then catalog.get_element_type typeoid else typeoid

def typeClass (catalog : Catalog) (typeoid : Nat) : Option CustomObjectDef :=
  if chfdw_is_builtin typeoid then none
  else
    match catalog.extname .TypeRelationId (catalog.member typeoid) with
    | some extname =>
        if extname == ascii "hstore" || catalog.pgch_is_pgvector_type typeoid then
          some { init_custom_entry with
            cf_type := if catalog.pgch_is_pgvector_type typeoid then .CF_PGVECTOR else .CF_USUAL }
        else none
    | none => some init_custom_entry

def isVector (catalog : Catalog) (typid : Nat) : Bool :=
  match typeClass catalog typid with
  | some cdef => cdef.cf_type = .CF_PGVECTOR
  | none => false

/-- The types of arguments are all vectors.  An argument type with the identifier of the
object itself finds the entry of the object, which is none of a vector. -/
def vectorArgs (catalog : Catalog) (self : Nat) (types : List Nat) : Bool :=
  types.all fun typid => typid ≠ self && isVector catalog typid

def functionClass (builtins : Builtins) (catalog : Catalog) (funcid : Nat) :
    Option CustomObjectDef :=
  if chfdw_is_builtin funcid then (builtins.lookup_builtin_func funcid).map builtin_function
  else
    match catalog.extname .ProcedureRelationId funcid, catalog.PROCOID funcid with
    | some extname, some procform =>
        if extname = ascii "vector" then
          if vectorArgs catalog funcid procform.proargtypes then
            (pgvector_function_name procform).map fun (cf_type, ch_name) =>
              { init_custom_entry with cf_type := cf_type, custom_name := strlcpy ch_name }
          else none
        else extension_function extname procform
    | _, _ => none

/-- The type and name of an operator of an extension. -/
def extensionOperatorClass (catalog : Catalog) (opoid : Nat) (extname : Option Bytes)
    (form : Form_pg_operator) : Option (custom_object_type × Option Bytes) :=
  if extname = some (ascii "hstore") ∧ form.oprname = ascii "->" then
    some (.CF_HSTORE_FETCHVAL, none)
  else if extname = some (ascii "re2") ∧ form.oprname = ascii "@~" then
    some (.CF_OPERATOR_FUNC, some (ascii "match"))
  else if extname = some (ascii "vector") ∧ (pgvector_operator_type form.oprname).isSome then
    if vectorArgs catalog opoid [form.oprleft, form.oprright] then
      pgvector_operator_type form.oprname
    else none
  else none

/-- What `classify_builtin_operator` says of an operator. -/
def builtinOperator (builtins : Builtins) (catalog : Catalog) (opoid : Nat) :
    custom_object_type × Option Bytes :=
  if chfdw_is_builtin opoid then builtins.classify_builtin_operator (catalog.get_opcode opoid)
  else (.CF_USUAL, none)

def operatorClass (builtins : Builtins) (catalog : Catalog) (opoid : Nat) :
    Option CustomObjectDef :=
  let builtin := builtinOperator builtins catalog opoid
  if builtin.1 ≠ .CF_USUAL then some (operator_entry builtin)
  else if chfdw_is_builtin opoid then none
  else
    match catalog.OPEROID opoid with
    | some form =>
        (extensionOperatorClass catalog opoid (catalog.extname .OperatorRelationId opoid)
          form).map operator_entry
    | none => none

/-- What the catalogs say of an object, as an entry. -/
def classify (builtins : Builtins) (catalog : Catalog) : Class → Nat → Option CustomObjectDef
  | .ProcedureRelationId => functionClass builtins catalog
  | .TypeRelationId => typeClass catalog
  | .OperatorRelationId => operatorClass builtins catalog

/-- The catalogs say the same of a type. -/
structure Catalog.SameType (a b : Catalog) (typeoid : Nat) : Prop where
  member : a.member typeoid = b.member typeoid
  extname : a.extname .TypeRelationId (a.member typeoid) =
    b.extname .TypeRelationId (b.member typeoid)
  vector : a.pgch_is_pgvector_type typeoid = b.pgch_is_pgvector_type typeoid

/-- The catalogs say the same of an object, and of the types of its arguments. -/
def Catalog.Same (a b : Catalog) : Class → Nat → Prop
  | .ProcedureRelationId, oid =>
      a.extname .ProcedureRelationId oid = b.extname .ProcedureRelationId oid ∧
        a.PROCOID oid = b.PROCOID oid ∧
        ∀ form, a.PROCOID oid = some form → ∀ typid ∈ form.proargtypes, a.SameType b typid
  | .TypeRelationId, oid => a.SameType b oid
  | .OperatorRelationId, oid =>
      a.extname .OperatorRelationId oid = b.extname .OperatorRelationId oid ∧
        a.get_opcode oid = b.get_opcode oid ∧ a.OPEROID oid = b.OPEROID oid ∧
        ∀ form, a.OPEROID oid = some form →
          ∀ typid ∈ [form.oprleft, form.oprright], a.SameType b typid

variable {builtins : Builtins} {a b catalog : Catalog}

theorem typeClass_congr {typeoid : Nat} (same : a.SameType b typeoid) :
    typeClass a typeoid = typeClass b typeoid := by
  rw [typeClass, typeClass, same.extname, same.vector]

theorem vectorArgs_congr {self : Nat} {types : List Nat}
    (same : ∀ typid ∈ types, a.SameType b typid) :
    vectorArgs a self types = vectorArgs b self types := by
  induction types with
  | nil => rfl
  | cons typid types ih =>
      have first : isVector a typid = isVector b typid := by
        rw [isVector, isVector, typeClass_congr (same typid List.mem_cons_self)]
      have rest := ih fun typid member => same typid (List.mem_cons_of_mem _ member)
      rw [vectorArgs, List.all_cons, first, ← vectorArgs, rest]
      rfl

theorem functionClass_congr {funcid : Nat} (same : a.Same b .ProcedureRelationId funcid) :
    functionClass builtins a funcid = functionClass builtins b funcid := by
  obtain ⟨extname, row, args⟩ := same
  unfold functionClass
  rw [extname, ← row]
  cases b.extname .ProcedureRelationId funcid with
  | none => rfl
  | some extname =>
      cases form : a.PROCOID funcid with
      | none => rfl
      | some procform => simp only [vectorArgs_congr (args procform form)]

theorem operatorClass_congr {opoid : Nat} (same : a.Same b .OperatorRelationId opoid) :
    operatorClass builtins a opoid = operatorClass builtins b opoid := by
  obtain ⟨extname, opcode, row, args⟩ := same
  have builtin : builtinOperator builtins a opoid = builtinOperator builtins b opoid := by
    unfold builtinOperator
    rw [opcode]
  unfold operatorClass
  rw [builtin, extname, ← row]
  cases form : a.OPEROID opoid with
  | none => rfl
  | some form' =>
      have inside : extensionOperatorClass a opoid (b.extname .OperatorRelationId opoid) form' =
          extensionOperatorClass b opoid (b.extname .OperatorRelationId opoid) form' := by
        unfold extensionOperatorClass
        rw [vectorArgs_congr (args form' form)]
      simp only [inside]

theorem classify_congr {classId : Class} {oid : Nat} (same : a.Same b classId oid) :
    classify builtins a classId oid = classify builtins b classId oid := by
  cases classId with
  | ProcedureRelationId => exact functionClass_congr same
  | TypeRelationId => exact typeClass_congr same
  | OperatorRelationId => exact operatorClass_congr same

/-! ## Tables -/

/-- What a session knows: the entries, and what they were entered for. -/
structure Table where
  entry : Nat → Option CustomObjectDef
  made : Nat → Option (Class × Catalog)

namespace Table

def put (t : Table) (oid : Nat) (entry : Option CustomObjectDef)
    (made : Option (Class × Catalog)) : Table where
  entry := Function.update t.entry oid entry
  made := Function.update t.made oid made

section

variable (t : Table) (oid : Nat) (e : Option CustomObjectDef) (m : Option (Class × Catalog))

@[simp] theorem entry_put_self : (t.put oid e m).entry oid = e :=
  Function.update_self _ _ _

@[simp] theorem made_put_self : (t.put oid e m).made oid = m :=
  Function.update_self _ _ _

variable {oid} {other : Nat}

theorem entry_put_of_ne (differ : other ≠ oid) : (t.put oid e m).entry other = t.entry other :=
  Function.update_of_ne differ _ _

theorem made_put_of_ne (differ : other ≠ oid) : (t.put oid e m).made other = t.made other :=
  Function.update_of_ne differ _ _

end

/-- Apart from `skip`, every entry is the answer for the object it was entered for. -/
def SoundBut (builtins : Builtins) (skip : Option Nat) (t : Table) : Prop :=
  ∀ oid e, some oid ≠ skip → t.entry oid = some e →
    ∃ m, t.made oid = some m ∧ classify builtins m.2 m.1 oid = some e

abbrev Sound (builtins : Builtins) (t : Table) : Prop :=
  t.SoundBut builtins none

/-- What is in the table under an identifier was entered for this object, of which the
catalogs said the same. -/
def Own (catalog : Catalog) (classId : Class) (oid : Nat) (t : Table) : Prop :=
  ∀ m, t.made oid = some m → m.1 = classId ∧ m.2.Same catalog classId oid

end Table

/-- A session with the entries of `t`, in which no lookup raises if `quiet`. -/
structure Knows (t : Table) (quiet : Prop) (s : Session) : Prop where
  entry : s.entry = t.entry
  made : s.made = t.made
  quiet : quiet → s.raise = none

/-- The same, and the table is there. -/
structure Holds (t : Table) (quiet : Prop) (s : Session) : Prop extends Knows t quiet s where
  created : s.custom_objects_cache.isSome

/-! ## Steps of a classifier -/

section

variable {α β : Type} {t : Table} {quiet : Prop} {Q : α → Session → Prop} {R : Session → Prop}

theorem Knows.create {s : Session} (knows : Knows t quiet s) : Holds t quiet s.create := by
  unfold Session.create
  split
  · rename_i empty
    refine ⟨⟨?_, knows.made, knows.quiet⟩, rfl⟩
    rw [← knows.entry]
    funext oid
    unfold Session.entry
    rw [Option.isNone_iff_eq_none.mp empty]
    rfl
  · rename_i created
    exact ⟨knows, Option.isSome_iff_ne_none.mpr (mt Option.isNone_iff_eq_none.mpr created)⟩

theorem bind_create {f : Unit → M α} (rest : Triple (Holds t quiet) (f ()) Q R) :
    Triple (Knows t quiet) (create_custom_objects_cache >>= f) Q R :=
  Triple.bind (Triple.modify fun _ knows => knows.create) fun _ => rest

theorem bind_lookup {value : β} {f : β → M α} (rest : Triple (Holds t quiet) (f value) Q R)
    (raised : ∀ s, Holds t quiet s → ¬quiet → R s) :
    Triple (Holds t quiet) (lookup value >>= f) Q R := by
  refine Triple.bind (M := fun v s => v = value ∧ Holds t quiet s) ?_
    fun v => Triple.of_fact fun same => same ▸ rest
  intro s holds
  unfold lookup
  split
  · rename_i returned
    split at returned
    · cases returned
      exact ⟨rfl, holds⟩
    · cases returned
    · rename_i n left
      cases returned
      have noisy : ¬quiet := fun q => by
        rw [holds.quiet q] at left
        cases left
      exact ⟨rfl, ⟨⟨holds.entry, holds.made, fun q => absurd q noisy⟩, holds.created⟩⟩
  · rename_i failed
    split at failed
    · cases failed
    · rename_i left
      cases failed
      refine raised _ holds fun q => ?_
      rw [holds.quiet q] at left
      cases left
    · cases failed

theorem bind_find {oid : Nat} {f : Option CustomObjectDef → M α}
    (rest : Triple (Holds t quiet) (f (t.entry oid)) Q R) :
    Triple (Holds t quiet) (HASH_FIND oid >>= f) Q R := by
  refine Triple.bind (M := fun found s => found = t.entry oid ∧ Holds t quiet s) ?_
    fun found => Triple.of_fact fun same => same ▸ rest
  intro s holds
  exact ⟨congrFun holds.entry oid, holds⟩

theorem Holds.put {s : Session} (holds : Holds t quiet s) (oid : Nat)
    (entry : Option CustomObjectDef) (made : Option (Class × Catalog)) :
    Holds (t.put oid entry made) quiet (s.put oid entry made) := by
  refine ⟨⟨?_, ?_, holds.quiet⟩, ?_⟩
  · unfold Table.put
    rw [← holds.entry]
    obtain ⟨table, cache⟩ := Option.isSome_iff_exists.mp holds.created
    funext other
    simp only [Session.entry, Session.put, cache, Option.map_some, Option.bind_some,
      Function.update_apply]
  · unfold Table.put
    rw [← holds.made]
    rfl
  · exact (Option.isSome_map).trans holds.created

theorem bind_enter {classId : Class} {oid : Nat} {entry : CustomObjectDef} {f : Unit → M α}
    (rest : Triple (Holds (t.put oid (some entry) (some (classId, catalog))) quiet) (f ()) Q R) :
    Triple (Holds t quiet) (HASH_ENTER classId catalog oid entry >>= f) Q R :=
  Triple.bind (Triple.modify fun _ holds => holds.put _ _ _) fun _ => rest

theorem bind_remove {oid : Nat} {f : Unit → M α}
    (rest : Triple (Holds (t.put oid none none) quiet) (f ()) Q R) :
    Triple (Holds t quiet) (HASH_REMOVE oid >>= f) Q R :=
  Triple.bind (Triple.modify fun _ holds => holds.put _ _ _) fun _ => rest

end

/-! ## Sound tables -/

namespace Table

variable {t : Table} {skip : Option Nat} {self : Nat}

theorem SoundBut.begin_ (sound : t.Sound builtins) (entry : Option CustomObjectDef)
    (made : Option (Class × Catalog)) :
    (t.put self entry made).SoundBut builtins (some self) := by
  intro oid e other found
  have differ : oid ≠ self := fun same => other (congrArg some same)
  rw [entry_put_of_ne _ _ _ differ] at found
  rw [made_put_of_ne _ _ _ differ]
  exact sound oid e (Option.some_ne_none oid) found

theorem SoundBut.put {classId : Class} {oid : Nat} {e : CustomObjectDef}
    (sound : t.SoundBut builtins skip) (answer : classify builtins catalog classId oid = some e) :
    (t.put oid (some e) (some (classId, catalog))).SoundBut builtins skip := by
  intro other e' outside found
  by_cases same : other = oid
  · subst same
    rw [entry_put_self] at found
    cases found
    exact ⟨_, made_put_self _ _ _ _, answer⟩
  · rw [entry_put_of_ne _ _ _ same] at found
    rw [made_put_of_ne _ _ _ same]
    exact sound other e' outside found

theorem SoundBut.finish (sound : t.SoundBut builtins (some self))
    (made : Option (Class × Catalog)) (entry : Option CustomObjectDef)
    (answer : ∀ e, entry = some e →
      ∃ m, made = some m ∧ classify builtins m.2 m.1 self = some e) :
    (t.put self entry made).Sound builtins := by
  intro other e _ found
  by_cases same : other = self
  · subst same
    rw [entry_put_self] at found
    rw [made_put_self]
    exact answer e found
  · rw [entry_put_of_ne _ _ _ same] at found
    rw [made_put_of_ne _ _ _ same]
    exact sound other e (fun equal => same (Option.some.inj equal)) found

/-- What is found for an object of one's own is its answer. -/
theorem SoundBut.answer {classId : Class} {oid : Nat} {e : CustomObjectDef}
    (sound : t.SoundBut builtins skip) (outside : some oid ≠ skip)
    (own : t.Own catalog classId oid) (found : t.entry oid = some e) :
    classify builtins catalog classId oid = some e := by
  obtain ⟨m, made, answer⟩ := sound oid e outside found
  obtain ⟨rfl, same⟩ := own m made
  rw [← classify_congr same]
  exact answer

end Table

theorem Catalog.SameType.refl (typeoid : Nat) : catalog.SameType catalog typeoid :=
  ⟨rfl, rfl, rfl⟩

/-! ## Types -/

/-- What the table answers for a type. -/
def Table.typeAnswer (t : Table) (catalog : Catalog) (typeoid : Nat) : Option CustomObjectDef :=
  if chfdw_is_builtin typeoid then none
  else
    match t.entry typeoid with
    | some entry => some entry
    | none => typeClass catalog typeoid

/-- The table after a question for a type. -/
def Table.afterType (t : Table) (catalog : Catalog) (typeoid : Nat) : Table :=
  match t.entry typeoid, typeClass catalog typeoid with
  | none, some entry => t.put typeoid (some entry) (some (.TypeRelationId, catalog))
  | _, _ => t

theorem triple_type (t : Table) (quiet : Prop) (catalog : Catalog) (typeoid : Nat) :
    Triple (Knows t quiet) (chfdw_check_for_custom_type catalog typeoid)
      (fun answer s => answer = t.typeAnswer catalog typeoid ∧
        Holds (t.afterType catalog typeoid) quiet s)
      (fun s => Holds t quiet s ∧ ¬quiet) := by
  have raised : ∀ s, Holds t quiet s → ¬quiet → Holds t quiet s ∧ ¬quiet :=
    fun s holds noisy => ⟨holds, noisy⟩
  unfold chfdw_check_for_custom_type
  refine bind_create ?_
  by_cases builtin : chfdw_is_builtin typeoid
  · rw [if_pos builtin]
    refine Triple.pure fun s holds => ⟨(if_pos builtin).symm, ?_⟩
    unfold Table.afterType typeClass
    rw [if_pos builtin]
    split
    · rename_i nothing
      cases nothing
    · exact holds
  rw [if_neg builtin]
  unfold Table.typeAnswer Table.afterType
  rw [if_neg builtin]
  refine bind_find ?_
  cases t.entry typeoid with
  | some entry => exact Triple.pure fun s holds => ⟨rfl, holds⟩
  | none =>
      refine bind_lookup (bind_lookup (bind_lookup ?_ raised) raised) raised
      unfold typeClass
      rw [if_neg builtin]
      change Triple _ (match catalog.extname .TypeRelationId (catalog.member typeoid) with
        | some extname => _
        | none => _) _ _
      cases catalog.extname .TypeRelationId (catalog.member typeoid) with
      | none => exact bind_enter (Triple.pure fun s holds => ⟨rfl, holds⟩)
      | some extname =>
          refine bind_lookup ?_ raised
          simp only
          cases known : extname == ascii "hstore" || catalog.pgch_is_pgvector_type typeoid with
          | false => exact Triple.pure fun s holds => ⟨rfl, holds⟩
          | true => exact bind_enter (Triple.pure fun s holds => ⟨rfl, holds⟩)

/-- While the entry of an object is filled: the rest of the table is sound, and the types of
its arguments are found as types. -/
structure Table.Filling (t : Table) (builtins : Builtins) (catalog : Catalog) (oid : Nat)
    (types : List Nat) : Prop where
  user : ¬chfdw_is_builtin oid
  filled : t.entry oid = some init_custom_entry
  rest : t.SoundBut builtins (some oid)
  args : ∀ typid ∈ types, typid ≠ oid → t.Own catalog .TypeRelationId typid

namespace Table.Filling

variable {t : Table} {self : Nat} {types : List Nat} {typid : Nat}

theorem afterType (filling : t.Filling builtins catalog self types) :
    (t.afterType catalog typid).Filling builtins catalog self types := by
  unfold Table.afterType
  split
  · rename_i e missing answer
    have differ : self ≠ typid := by
      rintro rfl
      rw [filling.filled] at missing
      cases missing
    refine ⟨filling.user, ?_, filling.rest.put answer, fun other member outside => ?_⟩
    · rw [Table.entry_put_of_ne _ _ _ differ]
      exact filling.filled
    · intro m made
      by_cases same : other = typid
      · subst same
        rw [Table.made_put_self] at made
        cases made
        exact ⟨rfl, .refl other⟩
      · rw [Table.made_put_of_ne _ _ _ same] at made
        exact filling.args other member outside m made
  · exact filling

/-- What is answered for the type of an argument. -/
theorem is_vector (filling : t.Filling builtins catalog self types) (member : typid ∈ types) :
    (match t.typeAnswer catalog typid with
      | some cdef => decide (cdef.cf_type = .CF_PGVECTOR)
      | none => false) = (typid ≠ self && isVector catalog typid) := by
  unfold Table.typeAnswer
  by_cases same : typid = self
  · subst same
    rw [if_neg filling.user, filling.filled, decide_eq_false (not_not_intro rfl)]
    rfl
  rw [decide_eq_true same, Bool.true_and, isVector]
  by_cases builtin : chfdw_is_builtin typid
  · rw [if_pos builtin, typeClass, if_pos builtin]
  rw [if_neg builtin]
  cases found : t.entry typid with
  | none => rfl
  | some e =>
      have answer := filling.rest.answer (fun equal => same (Option.some.inj equal))
        (filling.args typid member same) found
      rw [← classify, answer]

end Table.Filling

section

variable {t : Table} {quiet : Prop} {self : Nat} {types : List Nat}

theorem triple_is_pgvector_type (filling : t.Filling builtins catalog self types) {typid : Nat}
    (member : typid ∈ types) :
    Triple (Holds t quiet) (chfdw_is_pgvector_type catalog typid)
      (fun vector s => vector = (typid ≠ self && isVector catalog typid) ∧
        ∃ t' : Table, t'.Filling builtins catalog self types ∧ Holds t' quiet s)
      (fun _ => ¬quiet) := by
  unfold chfdw_is_pgvector_type
  refine Triple.bind ((triple_type t quiet catalog typid).imp (fun s holds => holds.toKnows)
    (fun _ _ post => post) fun s raised => raised.2) fun answer => ?_
  refine Triple.of_fact fun same => ?_
  have value := filling.is_vector member
  rw [← same] at value
  cases answer with
  | none => exact Triple.pure fun s holds => ⟨value, _, filling.afterType, holds⟩
  | some cdef => exact Triple.pure fun s holds => ⟨value, _, filling.afterType, holds⟩

theorem triple_all_pgvector (rest : List Nat) :
    ∀ {t : Table}, t.Filling builtins catalog self types → rest ⊆ types →
    Triple (Holds t quiet) (all_pgvector catalog rest)
      (fun vectors s => vectors = vectorArgs catalog self rest ∧
        ∃ t' : Table, t'.Filling builtins catalog self types ∧ Holds t' quiet s)
      (fun _ => ¬quiet) := by
  induction rest with
  | nil => exact fun filling _ => Triple.pure fun s holds => ⟨rfl, _, filling, holds⟩
  | cons typid rest ih =>
      intro t filling subset
      unfold all_pgvector
      refine Triple.bind (triple_is_pgvector_type filling (subset List.mem_cons_self))
        fun vector => Triple.of_fact fun same => ?_
      intro s ⟨t', filling', holds⟩
      unfold vectorArgs
      rw [List.all_cons, ← same]
      cases vector with
      | false => exact ⟨rfl, t', filling', holds⟩
      | true => exact ih filling' (fun _ member => subset (List.mem_cons_of_mem _ member)) s holds

end

/-- An entry that was just entered, for the object itself. -/
theorem Table.SoundBut.filling {t : Table} {oid : Nat} {entry : CustomObjectDef}
    {made : Option (Class × Catalog)} {types : List Nat}
    (begun : (t.put oid (some entry) made).SoundBut builtins (some oid))
    (user : ¬chfdw_is_builtin oid) (new : entry = init_custom_entry)
    (own : ∀ typid ∈ types, t.Own catalog .TypeRelationId typid) :
    (t.put oid (some entry) made).Filling builtins catalog oid types where
  user := user
  filled := by rw [Table.entry_put_self, new]
  rest := begun
  args typid member differ m made := by
    rw [Table.made_put_of_ne _ _ _ differ] at made
    exact own typid member m made

theorem triple_pgvector_function {t : Table} {quiet : Prop} {oid : Nat}
    {procform : Form_pg_proc}
    (filling : t.Filling builtins catalog oid procform.proargtypes) :
    Triple (Holds t quiet) (pgvector_function catalog procform)
      (fun answer s => (answer =
          if vectorArgs catalog oid procform.proargtypes then
            (pgvector_function_name procform).map fun (cf_type, ch_name) =>
              { init_custom_entry with cf_type := cf_type, custom_name := strlcpy ch_name }
          else none) ∧
        ∃ t' : Table, t'.Filling builtins catalog oid procform.proargtypes ∧ Holds t' quiet s)
      (fun _ => ¬quiet) := by
  unfold pgvector_function
  refine Triple.bind (triple_all_pgvector procform.proargtypes filling (List.Subset.refl _))
    fun vectors => Triple.of_fact fun same => ?_
  rw [← same]
  cases vectors with
  | false => exact Triple.pure fun s filled => ⟨rfl, filled⟩
  | true => exact Triple.pure fun s filled => ⟨rfl, filled⟩

/-! ## Functions -/

/-- A function whose entry is found was entered for it; one that is to be classified meets no
lookup that raises, and finds the types of its arguments as types. -/
structure Table.FunctionReady (t : Table) (catalog : Catalog) (quiet : Prop) (funcid : Nat) :
    Prop where
  own : t.Own catalog .ProcedureRelationId funcid
  lookups : ¬chfdw_is_builtin funcid → t.entry funcid = none → quiet ∧
    ∀ extname, catalog.extname .ProcedureRelationId funcid = some extname →
      ∃ procform, catalog.PROCOID funcid = some procform ∧
        (extname = ascii "vector" → ∀ typid ∈ procform.proargtypes,
          t.Own catalog .TypeRelationId typid)

section

variable {t : Table} {quiet : Prop} {funcid : Nat}

/-- The entry is written at the end. -/
theorem triple_enter (classId : Class) {oid : Nat} {entry : CustomObjectDef}
    {Q : Option CustomObjectDef → Session → Prop} {R : Session → Prop}
    (sound : t.SoundBut builtins (some oid))
    (answer : classify builtins catalog classId oid = some entry)
    (post : ∀ s, (∃ t' : Table, t'.Sound builtins ∧ Holds t' quiet s) → Q (some entry) s) :
    Triple (Holds t quiet)
      (do
        HASH_ENTER classId catalog oid entry
        return some entry) Q R := by
  refine bind_enter (Triple.pure fun s holds => post s ⟨_, ?_, holds⟩)
  refine sound.finish _ _ fun e same => ⟨_, rfl, ?_⟩
  rw [answer, ← same]

/-- Or it is removed. -/
theorem triple_remove {oid : Nat} {Q : Option CustomObjectDef → Session → Prop}
    {R : Session → Prop} (sound : t.SoundBut builtins (some oid))
    (post : ∀ s, (∃ t' : Table, t'.Sound builtins ∧ Holds t' quiet s) → Q none s) :
    Triple (Holds t quiet)
      (do
        HASH_REMOVE oid
        return none) Q R :=
  bind_remove (Triple.pure fun s holds =>
    post s ⟨_, sound.finish none none nofun, holds⟩)

/-- The end of a function outside the server. -/
theorem triple_answer {answer : Option CustomObjectDef}
    {Q : Option CustomObjectDef → Session → Prop} {R : Session → Prop}
    (sound : t.SoundBut builtins (some funcid))
    (class_ : functionClass builtins catalog funcid = answer)
    (post : ∀ s, (∃ t' : Table, t'.Sound builtins ∧ Holds t' quiet s) → Q answer s) :
    Triple (Holds t quiet)
      (match answer with
        | some entry => do
            HASH_ENTER .ProcedureRelationId catalog funcid entry
            return some entry
        | none => do
            HASH_REMOVE funcid
            return none) Q R := by
  cases answer with
  | none => exact triple_remove sound post
  | some entry => exact triple_enter .ProcedureRelationId sound class_ post

theorem triple_function (sound : t.Sound builtins)
    (known : chfdw_is_builtin funcid → (builtins.lookup_builtin_func funcid).isSome)
    (ready : t.FunctionReady catalog quiet funcid) :
    Triple (Knows t quiet) (chfdw_check_for_custom_function builtins catalog funcid)
      (fun answer s => answer = functionClass builtins catalog funcid ∧
        ∃ t' : Table, t'.Sound builtins ∧ Holds t' quiet s)
      (fun _ => False) := by
  unfold chfdw_check_for_custom_function
  simp only
  rw [if_neg (by
    rintro ⟨builtin, nothing⟩
    rw [if_pos builtin, Option.isNone_iff_eq_none] at nothing
    have some_ := known builtin
    rw [nothing] at some_
    cases some_)]
  refine bind_create (bind_find ?_)
  cases found : t.entry funcid with
  | some entry =>
      refine Triple.pure fun s holds => ⟨?_, t, sound, holds⟩
      exact (sound.answer (Option.some_ne_none _) ready.own found).symm
  | none =>
      refine bind_enter ?_
      have begun : (t.put funcid (some init_custom_entry)
          (some (.ProcedureRelationId, catalog))).SoundBut builtins (some funcid) :=
        sound.begin_ _ _
      by_cases builtin : chfdw_is_builtin funcid
      · obtain ⟨func, row⟩ := Option.isSome_iff_exists.mp (known builtin)
        rw [if_pos builtin, row]
        have answer : functionClass builtins catalog funcid = some (builtin_function func) := by
          unfold functionClass
          rw [if_pos builtin, row]
          rfl
        rw [answer]
        exact triple_enter .ProcedureRelationId begun answer fun s sound => ⟨rfl, sound⟩
      · rw [if_neg builtin]
        obtain ⟨silent, rows⟩ := ready.lookups builtin found
        have never : ∀ {t : Table} s, Holds t quiet s → ¬quiet → False :=
          fun _ _ noisy => noisy silent
        refine bind_lookup (bind_lookup ?_ never) never
        have named : catalog.get_extension_name (catalog.getExtensionOfObject
            .ProcedureRelationId funcid) = catalog.extname .ProcedureRelationId funcid := rfl
        rw [named]
        cases ext : catalog.extname .ProcedureRelationId funcid with
        | none =>
            have answer : functionClass builtins catalog funcid = none := by
              unfold functionClass
              rw [if_neg builtin, ext]
            rw [answer]
            exact triple_remove begun fun s sound => ⟨rfl, sound⟩
        | some extname =>
            obtain ⟨procform, row, args⟩ := rows extname ext
            refine bind_lookup ?_ never
            rw [row]
            simp only
            by_cases vector : extname = ascii "vector"
            · rw [if_pos vector]
              have filling : (t.put funcid (some init_custom_entry)
                  (some (.ProcedureRelationId, catalog))).Filling builtins catalog funcid
                    procform.proargtypes :=
                begun.filling builtin rfl fun typid member => args vector typid member
              refine Triple.bind ((triple_pgvector_function filling).imp (fun _ holds => holds)
                (fun _ _ post => post) fun s noisy => noisy silent) fun answer => ?_
              refine Triple.of_fact fun same => Triple.of_exists fun t' =>
                Triple.of_fact fun filling' => ?_
              have class_ : functionClass builtins catalog funcid = answer := by
                unfold functionClass
                rw [if_neg builtin, ext, row, same]
                exact if_pos vector
              rw [class_]
              exact triple_answer filling'.rest class_ fun s sound => ⟨rfl, sound⟩
            · rw [if_neg vector, pure_bind]
              have class_ : functionClass builtins catalog funcid =
                  extension_function extname procform := by
                unfold functionClass
                rw [if_neg builtin, ext, row]
                exact if_neg vector
              rw [class_]
              exact triple_answer begun class_ fun s sound => ⟨rfl, sound⟩

end

/-! ## Operators -/

structure Table.OperatorReady (t : Table) (catalog : Catalog) (quiet : Prop) (opoid : Nat) :
    Prop where
  own : t.Own catalog .OperatorRelationId opoid
  lookups : ¬chfdw_is_builtin opoid → t.entry opoid = none → quiet ∧
    ∀ form, catalog.OPEROID opoid = some form →
      catalog.extname .OperatorRelationId opoid = some (ascii "vector") →
        ∀ typid ∈ [form.oprleft, form.oprright], t.Own catalog .TypeRelationId typid

section

variable {t : Table} {quiet : Prop} {opoid : Nat}

/-- No answer is asked of the table, as the server has the operator under its own name. -/
def plainBuiltin (builtins : Builtins) (catalog : Catalog) (opoid : Nat) : Prop :=
  chfdw_is_builtin opoid ∧ (builtinOperator builtins catalog opoid).1 = .CF_USUAL

theorem triple_builtin_operator :
    Triple (Holds t quiet) (builtin_operator builtins catalog opoid)
      (fun builtin s => builtin = builtinOperator builtins catalog opoid ∧ Holds t quiet s)
      (fun s => Holds t quiet s ∧ ¬quiet) := by
  unfold builtin_operator builtinOperator
  split
  · exact bind_lookup (Triple.pure fun s holds => ⟨rfl, holds⟩) fun s holds noisy =>
      ⟨holds, noisy⟩
  · exact Triple.pure fun s holds => ⟨rfl, holds⟩

theorem triple_operator_form {form : Option Form_pg_operator}
    (passed : ∀ row, form = some row → catalog.OPEROID opoid = some row) :
    Triple (Holds t quiet) (operator_form catalog opoid form)
      (fun row s => catalog.OPEROID opoid = some row ∧ Holds t quiet s)
      (fun s => Holds t quiet s ∧ (¬quiet ∨ catalog.OPEROID opoid = none)) := by
  unfold operator_form
  cases form with
  | some row => exact Triple.pure fun s holds => ⟨passed row rfl, holds⟩
  | none =>
      refine bind_lookup ?_ fun s holds noisy => ⟨holds, Or.inl noisy⟩
      cases catalog.OPEROID opoid with
      | some row => exact Triple.pure fun s holds => ⟨rfl, holds⟩
      | none => exact Triple.throw fun s holds => ⟨holds, Or.inr rfl⟩

theorem triple_extension_operator {extname : Option Bytes} {form : Form_pg_operator}
    {types : List Nat} (filling : t.Filling builtins catalog opoid types)
    (args : extname = some (ascii "vector") → [form.oprleft, form.oprright] ⊆ types) :
    Triple (Holds t quiet) (extension_operator catalog extname form)
      (fun answer s => answer = extensionOperatorClass catalog opoid extname form ∧
        ∃ t' : Table, t'.Filling builtins catalog opoid types ∧ Holds t' quiet s)
      (fun _ => ¬quiet) := by
  unfold extension_operator extensionOperatorClass
  split
  · exact Triple.pure fun s holds => ⟨rfl, t, filling, holds⟩
  split
  · exact Triple.pure fun s holds => ⟨rfl, t, filling, holds⟩
  split
  · rename_i vector
    refine Triple.bind (triple_all_pgvector _ filling (args vector.1)) fun vectors =>
      Triple.of_fact fun same => ?_
    rw [← same]
    cases vectors with
    | false => exact Triple.pure fun s filled => ⟨rfl, filled⟩
    | true => exact Triple.pure fun s filled => ⟨rfl, filled⟩
  · exact Triple.pure fun s holds => ⟨rfl, t, filling, holds⟩

/-- What an operator needs when its entry has been entered. -/
theorem Table.OperatorReady.entered (ready : t.OperatorReady catalog quiet opoid)
    (found : t.entry opoid = none) (user : ¬chfdw_is_builtin opoid) :
    quiet ∧ ∀ form, catalog.OPEROID opoid = some form →
      catalog.extname .OperatorRelationId opoid = some (ascii "vector") →
        ∀ typid ∈ [form.oprleft, form.oprright], t.Own catalog .TypeRelationId typid :=
  ready.lookups user found

theorem triple_operator_type {made : Option (Class × Catalog)} {row : Form_pg_operator}
    (begun : (t.put opoid (some init_custom_entry) made).SoundBut builtins (some opoid))
    (plain : ¬plainBuiltin builtins catalog opoid) (present : catalog.OPEROID opoid = some row)
    (entered : ¬chfdw_is_builtin opoid → quiet ∧ ∀ form, catalog.OPEROID opoid = some form →
      catalog.extname .OperatorRelationId opoid = some (ascii "vector") →
        ∀ typid ∈ [form.oprleft, form.oprright], t.Own catalog .TypeRelationId typid) :
    Triple (Holds (t.put opoid (some init_custom_entry) made) quiet)
      (operator_type catalog opoid (builtinOperator builtins catalog opoid) row)
      (fun answer s => answer.map operator_entry = operatorClass builtins catalog opoid ∧
        ∃ t' : Table, t'.SoundBut builtins (some opoid) ∧ Holds t' quiet s)
      (fun _ => False) := by
  unfold operator_type operatorClass
  simp only
  split
  · exact Triple.pure fun s holds => ⟨rfl, _, begun, holds⟩
  rename_i usual
  have user : ¬chfdw_is_builtin opoid := fun builtin => plain ⟨builtin, not_not.mp usual⟩
  obtain ⟨silent, args⟩ := entered user
  have never : ∀ {t : Table} s, Holds t quiet s → ¬quiet → False :=
    fun _ _ noisy => noisy silent
  rw [if_neg user, present]
  refine bind_lookup (bind_lookup ?_ never) never
  change Triple _ (extension_operator catalog (catalog.extname .OperatorRelationId opoid) row) _ _
  by_cases vector : catalog.extname .OperatorRelationId opoid = some (ascii "vector")
  · have filling := begun.filling user rfl (args row present vector)
    refine (triple_extension_operator filling fun _ => List.Subset.refl _).imp
      (fun _ holds => holds) ?_ fun _ noisy => noisy silent
    intro answer s ⟨same, t', filling', holds⟩
    exact ⟨by rw [same], t', filling'.rest, holds⟩
  · have filling : (t.put opoid (some init_custom_entry) made).Filling builtins catalog opoid [] :=
      begun.filling user rfl (List.forall_mem_nil _)
    refine (triple_extension_operator filling fun same => absurd same vector).imp
      (fun _ holds => holds) ?_ fun _ noisy => noisy silent
    intro answer s ⟨same, t', filling', holds⟩
    exact ⟨by rw [same], t', filling'.rest, holds⟩

theorem triple_operator {form : Option Form_pg_operator}
    (sound : t.Sound builtins)
    (passed : ∀ row, form = some row → catalog.OPEROID opoid = some row)
    (ready : ¬plainBuiltin builtins catalog opoid → t.OperatorReady catalog quiet opoid) :
    Triple (Knows t quiet) (chfdw_check_for_custom_operator builtins catalog opoid form)
      (fun answer s => answer = operatorClass builtins catalog opoid ∧
        (plainBuiltin builtins catalog opoid ∨ (catalog.OPEROID opoid).isSome) ∧
        ∃ t' : Table, t'.Sound builtins ∧ Holds t' quiet s)
      (fun s => (¬quiet ∨ ¬plainBuiltin builtins catalog opoid ∧ catalog.OPEROID opoid = none) ∧
        ∃ t' : Table, t'.Sound builtins ∧ Holds t' quiet s) := by
  unfold chfdw_check_for_custom_operator
  refine bind_create (Triple.bind (triple_builtin_operator.imp (fun _ holds => holds)
    (fun _ _ post => post) fun s raised => ⟨Or.inl raised.2, t, sound, raised.1⟩) fun builtin => ?_)
  refine Triple.of_fact fun same => ?_
  subst same
  split
  · rename_i plain
    refine Triple.pure fun s holds => ⟨?_, Or.inl plain, t, sound, holds⟩
    unfold operatorClass
    simp only
    rw [if_neg (not_not_intro plain.2), if_pos plain.1]
  rename_i used
  have plain : ¬plainBuiltin builtins catalog opoid := used
  refine Triple.bind ((triple_operator_form passed).imp (fun _ holds => holds)
    (fun _ _ post => post) fun s raised => ⟨?_, t, sound, raised.1⟩) fun row => ?_
  · exact raised.2.imp id fun missing => ⟨plain, missing⟩
  refine Triple.of_fact fun present => bind_find ?_
  have exists_ : (catalog.OPEROID opoid).isSome := Option.isSome_iff_exists.mpr ⟨row, present⟩
  cases found : t.entry opoid with
  | some entry =>
      refine Triple.pure fun s holds => ⟨?_, Or.inr exists_, t, sound, holds⟩
      exact (sound.answer (Option.some_ne_none _) (ready plain).own found).symm
  | none =>
      refine bind_enter (Triple.bind ((triple_operator_type (sound.begin_ _ _) plain present
        ((ready plain).entered found)).imp (fun _ holds => holds) (fun _ _ post => post)
        fun _ never => never.elim) fun answer => Triple.of_fact fun class_ => ?_)
      refine Triple.of_exists fun t' => Triple.of_fact fun sound' => ?_
      cases answer with
      | none => exact triple_remove sound' fun s sound => ⟨class_, Or.inr exists_, sound⟩
      | some answer =>
          exact triple_enter .OperatorRelationId sound' class_.symm
            fun s sound => ⟨class_, Or.inr exists_, sound⟩

end

/-! ## Runs -/

/-- What is asked for.  Some callers pass the row of an operator that they have looked up. -/
inductive Object
  | function (funcid : Nat)
  | type (typeoid : Nat)
  | operator (opoid : Nat) (with_form : Bool)

def passedForm (catalog : Catalog) (opoid : Nat) (with_form : Bool) : Option Form_pg_operator :=
  if with_form then catalog.OPEROID opoid else none

def check (builtins : Builtins) (catalog : Catalog) : Object → M (Option CustomObjectDef)
  | .function funcid => chfdw_check_for_custom_function builtins catalog funcid
  | .type typeoid => chfdw_check_for_custom_type catalog typeoid
  | .operator opoid with_form =>
      chfdw_check_for_custom_operator builtins catalog opoid (passedForm catalog opoid with_form)

inductive XactEvent
  | COMMIT
  | PARALLEL_COMMIT
  | ABORT
  | PARALLEL_ABORT
  | PREPARE
  | PRE_COMMIT
  | PARALLEL_PRE_COMMIT
  | PRE_PREPARE
  deriving Repr, DecidableEq

/-- Before the callback is registered there is no table, and creating one clears the flag. -/
def invalidate_custom_objects_cache (s : Session) : Session :=
  { s with custom_objects_stale := true }

def drop_stale_custom_objects (event : XactEvent) (s : Session) : Session :=
  if s.custom_objects_stale ∧ s.custom_objects_cache.isSome ∧
      (event = .COMMIT ∨ event = .ABORT) then
    { s with
      custom_objects_cache := none
      custom_objects_stale := false
      made := fun _ => none }
  else s

/-- A backend process and what it sees of the catalogs. -/
structure Backend where
  session : Session
  catalog : Catalog

/-- A call in which the lookup after `raise` others raises, the end of a transaction, or a
change of the catalogs, of which the callbacks may hear. -/
inductive Event
  | call (object : Object) (raise : Option Nat)
  | xact (event : XactEvent)
  | change (catalog : Catalog) (noticed : Bool)

namespace Backend

def run (builtins : Builtins) (b : Backend) (object : Object) (raise : Option Nat) :
    EStateM.Result Unit Session (Option CustomObjectDef) :=
  check builtins b.catalog object { b.session with raise := raise }

def step (builtins : Builtins) (b : Backend) : Event → Backend
  | .call object raise =>
      match b.run builtins object raise with
      | .ok _ session => { b with session := session }
      | .error _ session => { b with session := session }
  | .xact event => { b with session := drop_stale_custom_objects event b.session }
  | .change catalog noticed =>
      { session := if noticed then invalidate_custom_objects_cache b.session else b.session
        catalog := catalog }

/-- The answer of a call that returns. -/
def answer (builtins : Builtins) (b : Backend) (object : Object) (raise : Option Nat) :
    Option (Option CustomObjectDef) :=
  match b.run builtins object raise with
  | .ok answer _ => some answer
  | .error .. => none

/-- The answer of an empty cache. -/
def fresh (builtins : Builtins) (catalog : Catalog) (object : Object) :
    Option (Option CustomObjectDef) :=
  answer builtins ⟨.empty, catalog⟩ object none

def table (b : Backend) : Table :=
  ⟨b.session.entry, b.session.made⟩

/-- A step that shares no identifier, is not interrupted while it fills an entry, and meets no
entry of an object that has changed since. -/
def Meets (builtins : Builtins) (b : Backend) : Event → Prop
  | .call (.function funcid) raise =>
      (chfdw_is_builtin funcid → (builtins.lookup_builtin_func funcid).isSome) →
        b.table.FunctionReady b.catalog (raise = none) funcid
  | .call (.type typeoid) _ =>
      ¬chfdw_is_builtin typeoid → b.table.Own b.catalog .TypeRelationId typeoid
  | .call (.operator opoid with_form) raise =>
      ¬plainBuiltin builtins b.catalog opoid →
        b.table.OperatorReady b.catalog
          -- the row of the operator is looked up before the entry is entered
          (raise = none ∨ raise = some 0 ∧ passedForm b.catalog opoid with_form = none) opoid
  | .xact _ => True
  | .change .. => True

end Backend

/-- What a run of such steps reaches. -/
def Reached (builtins : Builtins) : Backend → Prop :=
  Runs.Reachable (fun b => b.session = .empty) fun b event b' =>
    b.Meets builtins event ∧ b' = b.step builtins event

/-! ## What a call answers -/

section

variable {b : Backend} {object : Object} {raise : Option Nat}

/-- A call keeps the table sound, and answers what an empty cache answers. -/
def Backend.Right (builtins : Builtins) (b : Backend) (object : Object) (raise : Option Nat) :
    Prop :=
  (b.step builtins (.call object raise)).table.Sound builtins ∧
    ∀ answer, b.answer builtins object raise = some answer →
      Backend.fresh builtins b.catalog object = some answer

/-- The session of a call, before it. -/
theorem knows_start (b : Backend) (raise : Option Nat) :
    Knows b.table (raise = none) { b.session with raise := raise } :=
  ⟨rfl, rfl, id⟩

theorem Knows.table_eq {t : Table} {quiet : Prop} {s : Session} (knows : Knows t quiet s)
    (catalog : Catalog) : Backend.table ⟨s, catalog⟩ = t := by
  unfold Backend.table
  rw [knows.entry, knows.made]

theorem right_of_ok {answer : Option CustomObjectDef} {s : Session} {t : Table}
    (returned : b.run builtins object raise = .ok answer s) (sound : t.Sound builtins)
    (knows : Knows t (raise = none) s)
    (fresh : Backend.fresh builtins b.catalog object = some answer) :
    b.Right builtins object raise := by
  unfold Backend.Right
  simp only [Backend.step, Backend.answer, returned, knows.table_eq]
  refine ⟨sound, fun answer' same => ?_⟩
  rw [fresh, same]

theorem right_of_error {s : Session} {t : Table}
    (failed : b.run builtins object raise = .error () s) (sound : t.Sound builtins)
    (knows : Knows t (raise = none) s) : b.Right builtins object raise := by
  unfold Backend.Right
  simp only [Backend.step, Backend.answer, failed, knows.table_eq]
  exact ⟨sound, nofun⟩

/-- A call whose triple says what it answers, and what an empty cache does. -/
theorem right_of_triple {P : Session → Prop} {Q : Option CustomObjectDef → Prop}
    (triple : Triple P (check builtins b.catalog object)
      (fun answer s => Q answer ∧ ∃ t : Table, t.Sound builtins ∧ Holds t (raise = none) s)
      (fun s => ∃ t : Table, t.Sound builtins ∧ Holds t (raise = none) s))
    (start : P { b.session with raise := raise })
    (fresh : ∀ answer, Q answer → Backend.fresh builtins b.catalog object = some answer) :
    b.Right builtins object raise := by
  have done := triple _ start
  split at done
  · rename_i returned
    obtain ⟨means, t, sound, holds⟩ := done
    exact right_of_ok returned sound holds.toKnows (fresh _ means)
  · rename_i failed
    obtain ⟨t, sound, holds⟩ := done
    exact right_of_error failed sound holds.toKnows

/-- The answer of an empty cache, from a triple. -/
theorem fresh_of_triple {answer : Option CustomObjectDef} {R : Session → Prop}
    (triple : Triple (Knows (Backend.table ⟨.empty, catalog⟩) True)
      (check builtins catalog object) (fun answer' _ => answer' = answer) R)
    (returns : ∀ s, ¬R s) : Backend.fresh builtins catalog object = some answer := by
  have done := triple { Session.empty with raise := none } ⟨rfl, rfl, fun _ => rfl⟩
  unfold Backend.fresh Backend.answer Backend.run
  split at done
  · rename_i returned
    rw [returned, done]
  · exact absurd done (returns _)

theorem sound_empty (catalog : Catalog) :
    (Backend.table ⟨.empty, catalog⟩).Sound builtins :=
  nofun

theorem own_empty (classId : Class) (oid : Nat) (seen : Catalog) :
    (Backend.table ⟨.empty, seen⟩).Own catalog classId oid :=
  nofun

/-! ### Functions -/

/-- A function that has an answer has a row, if it belongs to an extension. -/
theorem row_of_functionClass {funcid : Nat} {e : CustomObjectDef} {extname : Bytes}
    (user : ¬chfdw_is_builtin funcid) (answer : functionClass builtins catalog funcid = some e)
    (ext : catalog.extname .ProcedureRelationId funcid = some extname) :
    ∃ procform, catalog.PROCOID funcid = some procform := by
  unfold functionClass at answer
  rw [if_neg user, ext] at answer
  cases row : catalog.PROCOID funcid with
  | none =>
      rw [row] at answer
      cases answer
  | some procform => exact ⟨procform, rfl⟩

theorem fresh_function {funcid : Nat}
    (known : chfdw_is_builtin funcid → (builtins.lookup_builtin_func funcid).isSome)
    (rows : ¬chfdw_is_builtin funcid → ∀ extname,
      catalog.extname .ProcedureRelationId funcid = some extname →
        ∃ procform, catalog.PROCOID funcid = some procform) :
    Backend.fresh builtins catalog (.function funcid) =
      some (functionClass builtins catalog funcid) := by
  refine fresh_of_triple ((triple_function (sound_empty catalog) known
    ⟨own_empty _ _ _, fun user _ => ⟨trivial, fun extname ext => ?_⟩⟩).imp (fun _ knows => knows)
    (fun _ _ post => post.1) fun _ never => never) fun _ never => never
  obtain ⟨procform, row⟩ := rows user extname ext
  exact ⟨procform, row, fun _ _ _ => own_empty _ _ _⟩

theorem right_function {funcid : Nat} (sound : b.table.Sound builtins)
    (meets : b.Meets builtins (.call (.function funcid) raise)) :
    b.Right builtins (.function funcid) raise := by
  by_cases known : chfdw_is_builtin funcid → (builtins.lookup_builtin_func funcid).isSome
  · have ready := meets known
    refine right_of_triple ((triple_function sound known ready).imp (fun _ knows => knows)
      (fun _ _ post => post) fun _ never => False.elim never) (knows_start b raise)
      fun answer same => ?_
    rw [same]
    refine fresh_function known fun user extname ext => ?_
    cases found : b.table.entry funcid with
    | none =>
        obtain ⟨procform, row, -⟩ := (ready.lookups user found).2 extname ext
        exact ⟨procform, row⟩
    | some e =>
        exact row_of_functionClass user
          (sound.answer (Option.some_ne_none _) ready.own found) ext
  · obtain ⟨builtin, unknown⟩ := Classical.not_imp.mp known
    have quick : ∀ s, check builtins b.catalog (.function funcid) s = .ok none s := by
      intro s
      unfold check chfdw_check_for_custom_function
      simp only
      rw [if_pos ⟨builtin, by rwa [if_pos builtin, Option.isNone_iff_eq_none,
        ← Option.not_isSome_iff_eq_none]⟩]
      rfl
    refine right_of_ok (quick _) sound (knows_start b raise) ?_
    simp only [Backend.fresh, Backend.answer, Backend.run, quick]

/-! ### Types -/

theorem Table.typeAnswer_eq {t : Table} {typeoid : Nat} (sound : t.Sound builtins)
    (own : ¬chfdw_is_builtin typeoid → t.Own catalog .TypeRelationId typeoid) :
    t.typeAnswer catalog typeoid = typeClass catalog typeoid := by
  unfold Table.typeAnswer
  by_cases builtin : chfdw_is_builtin typeoid
  · rw [if_pos builtin, typeClass, if_pos builtin]
  rw [if_neg builtin]
  cases found : t.entry typeoid with
  | none => rfl
  | some e => exact (sound.answer (Option.some_ne_none _) (own builtin) found).symm

theorem Table.SoundBut.afterType {t : Table} {typeoid : Nat} (sound : t.Sound builtins) :
    (t.afterType catalog typeoid).Sound builtins := by
  unfold Table.afterType
  split
  · rename_i answer
    exact sound.put answer
  · exact sound

theorem fresh_type (typeoid : Nat) :
    Backend.fresh builtins catalog (.type typeoid) = some (typeClass catalog typeoid) := by
  refine fresh_of_triple ((triple_type _ True catalog typeoid).imp (fun _ knows => knows)
    (fun _ _ post => ?_) fun _ raised => raised.2) fun _ noisy => noisy trivial
  have sound : (Backend.table ⟨.empty, catalog⟩).Sound builtins := sound_empty catalog
  rw [post.1, Table.typeAnswer_eq sound fun _ => own_empty _ _ _]

theorem right_type {typeoid : Nat} (sound : b.table.Sound builtins)
    (meets : b.Meets builtins (.call (.type typeoid) raise)) :
    b.Right builtins (.type typeoid) raise := by
  refine right_of_triple ((triple_type b.table _ b.catalog typeoid).imp (fun _ knows => knows)
    (fun _ _ post => ⟨post.1, _, sound.afterType, post.2⟩)
    fun _ raised => ⟨_, sound, raised.1⟩) (knows_start b raise) fun answer same => ?_
  rw [same, Table.typeAnswer_eq sound meets]
  exact fresh_type typeoid

/-! ### Operators -/

theorem fresh_operator {opoid : Nat} {with_form : Bool}
    (present : plainBuiltin builtins catalog opoid ∨ (catalog.OPEROID opoid).isSome) :
    Backend.fresh builtins catalog (.operator opoid with_form) =
      some (operatorClass builtins catalog opoid) := by
  refine fresh_of_triple ((triple_operator (sound_empty catalog) ?_ fun _ =>
    ⟨own_empty _ _ _, fun _ _ => ⟨trivial, fun _ _ _ _ _ => own_empty _ _ _⟩⟩).imp
      (fun _ knows => knows) (fun _ _ post => post.1) fun _ raised => raised.1) ?_
  · intro row passed
    unfold passedForm at passed
    split at passed
    · exact passed
    · cases passed
  · intro s raised
    rcases raised with noisy | ⟨used, missing⟩
    · exact noisy trivial
    · rcases present with plain | row
      · exact used plain
      · rw [missing] at row
        cases row

/-- The lookup of the row raises before the entry is entered. -/
theorem triple_interrupted {t : Table} {quiet : Prop} {opoid : Nat} (sound : t.Sound builtins)
    (user : ¬chfdw_is_builtin opoid) :
    Triple (fun s => Knows t quiet s ∧ s.raise = some 0)
      (chfdw_check_for_custom_operator builtins catalog opoid none)
      (fun _ s => False ∧ ∃ t' : Table, t'.Sound builtins ∧ Holds t' quiet s)
      (fun s => ∃ t' : Table, t'.Sound builtins ∧ Holds t' quiet s) := by
  have create : Triple (fun s => Knows t quiet s ∧ s.raise = some 0) create_custom_objects_cache
      (fun _ s => Holds t quiet s ∧ s.raise = some 0)
      (fun s => ∃ t' : Table, t'.Sound builtins ∧ Holds t' quiet s) := by
    refine Triple.modify fun s ⟨knows, first⟩ => ⟨knows.create, ?_⟩
    unfold Session.create
    split <;> exact first
  have row : Triple (fun s => Holds t quiet s ∧ s.raise = some 0)
      (lookup (catalog.OPEROID opoid)) (fun _ _ => False)
      (fun s => ∃ t' : Table, t'.Sound builtins ∧ Holds t' quiet s) := by
    intro s ⟨holds, first⟩
    unfold lookup
    rw [first]
    exact ⟨t, sound, holds⟩
  unfold chfdw_check_for_custom_operator builtin_operator operator_form
  refine Triple.bind create fun _ => ?_
  rw [if_neg user, pure_bind, if_neg fun plain => user plain.1]
  exact Triple.bind (M := fun _ _ => False) (Triple.bind row fun _ _ never => never.elim)
    fun _ _ never => never.elim

theorem right_operator {opoid : Nat} {with_form : Bool} (sound : b.table.Sound builtins)
    (meets : b.Meets builtins (.call (.operator opoid with_form) raise)) :
    b.Right builtins (.operator opoid with_form) raise := by
  have passed : ∀ row, passedForm b.catalog opoid with_form = some row →
      b.catalog.OPEROID opoid = some row := by
    intro row passed
    unfold passedForm at passed
    split at passed
    · exact passed
    · cases passed
  by_cases ready : ¬plainBuiltin builtins b.catalog opoid →
      b.table.OperatorReady b.catalog (raise = none) opoid
  · refine right_of_triple
      (Q := fun answer => answer = operatorClass builtins b.catalog opoid ∧
        (plainBuiltin builtins b.catalog opoid ∨ (b.catalog.OPEROID opoid).isSome))
      ((triple_operator sound passed ready).imp (fun _ knows => knows)
        (fun _ _ post => ⟨⟨post.1, post.2.1⟩, post.2.2⟩) fun _ raised => raised.2)
      (knows_start b raise) fun answer post => ?_
    rw [post.1]
    exact fresh_operator post.2
  · obtain ⟨used, unready⟩ := Classical.not_imp.mp ready
    have early := meets used
    by_cases user : chfdw_is_builtin opoid
    · exact absurd ⟨early.own, fun outside => absurd user outside⟩ unready
    cases found : b.table.entry opoid with
    | some e =>
        refine absurd ⟨early.own, fun _ missing => ?_⟩ unready
        rw [found] at missing
        cases missing
    | none =>
        obtain ⟨silent | ⟨first, unpassed⟩, args⟩ := early.lookups user found
        · exact absurd ⟨early.own, fun _ _ => ⟨silent, args⟩⟩ unready
        · refine right_of_triple (P := fun s => Knows b.table (raise = none) s ∧ s.raise = some 0)
            (Q := fun _ => False) ?_ ⟨knows_start b raise, first⟩ fun _ never => never.elim
          unfold check
          simp only [unpassed]
          exact triple_interrupted sound user

theorem right_call (sound : b.table.Sound builtins)
    (meets : b.Meets builtins (.call object raise)) : b.Right builtins object raise := by
  cases object with
  | function funcid => exact right_function sound meets
  | type typeoid => exact right_type sound meets
  | operator opoid with_form => exact right_operator sound meets

end

/-! ## The cache -/

theorem sound_drop {b : Backend} (event : XactEvent) (sound : b.table.Sound builtins) :
    (b.step builtins (.xact event)).table.Sound builtins := by
  change (Backend.table ⟨drop_stale_custom_objects event b.session, b.catalog⟩).Sound builtins
  unfold drop_stale_custom_objects
  split
  · exact fun oid e _ found => nomatch found
  · exact sound

theorem sound_change {b : Backend} (catalog : Catalog) (noticed : Bool)
    (sound : b.table.Sound builtins) :
    (b.step builtins (.change catalog noticed)).table.Sound builtins := by
  cases noticed with
  | true => exact sound
  | false => exact sound

/-- No entry is half-filled in a run of such steps. -/
theorem Reached.sound {b : Backend} (reached : Reached builtins b) :
    b.table.Sound builtins := by
  refine Runs.Reachable.invariant (I := fun b => b.table.Sound builtins) reached ?_ ?_
  · intro b start oid e _ found
    change b.session.entry oid = some e at found
    rw [start] at found
    cases found
  · rintro b event _ - sound ⟨meets, rfl⟩
    cases event with
    | call object raise => exact (right_call sound meets).1
    | xact event => exact sound_drop event sound
    | change catalog noticed => exact sound_change catalog noticed sound

/-- In every run of such steps, every entry is the answer for the object it was entered for,
and every call that returns answers what an empty cache answers on the same catalogs. -/
theorem cache_transparent {b : Backend} (reached : Reached builtins b) :
    b.table.Sound builtins ∧
      ∀ object raise, b.Meets builtins (.call object raise) →
        ∀ answer, b.answer builtins object raise = some answer →
          Backend.fresh builtins b.catalog object = some answer :=
  ⟨reached.sound, fun _ _ meets => (right_call reached.sound meets).2⟩

section

/-- No built-in function is rewritten. -/
def plainBuiltins : Builtins where
  lookup_builtin_func _ := none
  classify_builtin_operator _ := (.CF_USUAL, none)

/-- A type and a function, both 20000 and of no extension, and 20001 `soundex`. -/
def exampleCatalog : Catalog where
  getExtensionOfObject classId oid :=
    if classId = .ProcedureRelationId ∧ oid = 20001 then 16500 else 0
  get_extension_name oid := if oid = 16500 then some (ascii "fuzzystrmatch") else none
  get_element_type _ := 0
  pgch_is_pgvector_type _ := false
  get_opcode _ := 0
  PROCOID oid := if oid = 20001 then some ⟨ascii "soundex", [25], 25⟩ else none
  OPEROID _ := none

def exampleBackend : Backend :=
  ⟨.empty, exampleCatalog⟩

theorem soundex_ready (t : Table) (own : t.Own exampleCatalog .ProcedureRelationId 20001) :
    t.FunctionReady exampleCatalog (none = (none : Option Nat)) 20001 := by
  refine ⟨own, fun _ _ => ⟨rfl, fun extname ext => ⟨⟨ascii "soundex", [25], 25⟩, rfl, ?_⟩⟩⟩
  intro vector
  have fuzzy : exampleCatalog.extname .ProcedureRelationId 20001 =
      some (ascii "fuzzystrmatch") := rfl
  rw [fuzzy, vector] at ext
  exact absurd ext (by decide)

/-- `soundex` is asked for twice, and found the second time. -/
theorem cache_transparent_soundex :
    (exampleBackend.step plainBuiltins (.call (.function 20001) none)).answer plainBuiltins
        (.function 20001) none = some (some init_custom_entry) ∧
      Backend.fresh plainBuiltins exampleCatalog (.function 20001) =
        some (some init_custom_entry) := by
  have answered : (exampleBackend.step plainBuiltins
      (.call (.function 20001) none)).answer plainBuiltins (.function 20001) none =
        some (some init_custom_entry) := by
    decide +kernel
  have first : exampleBackend.Meets plainBuiltins (.call (.function 20001) none) :=
    fun _ => soundex_ready exampleBackend.table (own_empty _ _ _)
  have reached : Reached plainBuiltins
      (exampleBackend.step plainBuiltins (.call (.function 20001) none)) :=
    .next (.start rfl) ⟨first, rfl⟩
  refine ⟨answered, (cache_transparent reached).2 (.function 20001) none (fun _ => ?_) _ answered⟩
  refine soundex_ready _ fun m made => ?_
  cases made
  exact ⟨rfl, rfl, rfl, fun _ _ _ _ => .refl _⟩

/-- What any run reaches. -/
def AnyReached (builtins : Builtins) : Backend → Prop :=
  Runs.Reachable (fun b => b.session = .empty) fun b event b' => b' = b.step builtins event

/-- A type leaves an entry that a function of the same number finds, and an interrupted call
for a function leaves one that the next call finds; neither is the function's. -/
theorem not_cache_transparent :
    (exampleBackend.step plainBuiltins (.call (.type 20000) none)).answer plainBuiltins
        (.function 20000) none = some (some init_custom_entry) ∧
      (exampleBackend.step plainBuiltins (.call (.function 20000) (some 0))).answer plainBuiltins
        (.function 20000) none = some (some init_custom_entry) ∧
      Backend.fresh plainBuiltins exampleCatalog (.function 20000) = some none ∧
      ¬∀ b, AnyReached plainBuiltins b → ∀ object raise answer,
        b.answer plainBuiltins object raise = some answer →
          Backend.fresh plainBuiltins b.catalog object = some answer := by
  have shared : (exampleBackend.step plainBuiltins (.call (.type 20000) none)).answer
      plainBuiltins (.function 20000) none = some (some init_custom_entry) := by
    decide +kernel
  have none_ : Backend.fresh plainBuiltins exampleCatalog (.function 20000) = some none := by
    decide +kernel
  refine ⟨shared, by decide +kernel, none_, fun transparent => ?_⟩
  have same := transparent _ (.next (.start rfl) rfl) _ _ _ shared
  cases none_.symm.trans same

end

end PgClickhouse.CustomObjects
