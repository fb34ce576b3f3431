import Mathlib.Data.List.Basic

/-!
# Words that delimit themselves

Two ways to print a thing can be told apart inside a longer text if neither is a proper
beginning of the other.  Then a text is put together from parts as words are from letters:
two texts are equal exactly if their parts are.  Nothing here names a program.

* `Apart` : neither word begins with the other
* `Tells` : neither word is a proper beginning of the other, and a condition says whether
  they are equal
* `Unshifted` : no word begins with the other behind some opening letters
-/

namespace SelfDelimiting

variable {α β : Type} {s t u v : List α} {P Q : Prop}

/-- Neither word begins with the other. -/
def Apart (s t : List α) : Prop :=
  ∀ r r', s ++ r ≠ t ++ r'

namespace Apart

theorem symm (st : Apart s t) : Apart t s :=
  fun r r' same => st r' r same.symm

theorem of_head_ne {a b : α} (differ : a ≠ b) : Apart (a :: s) (b :: t) :=
  fun _ _ same => differ (List.cons.inj same).1

theorem cons (a : α) (st : Apart s t) : Apart (a :: s) (a :: t) :=
  fun r r' same => st r r' (List.cons.inj same).2

end Apart

/-- Neither word is a proper beginning of the other, and they are equal exactly if `P`. -/
structure Tells (s t : List α) (P : Prop) : Prop where
  delimits : ∀ r r', s ++ r = t ++ r' → s = t
  eq_iff : s = t ↔ P

namespace Tells

theorem refl (s : List α) : Tells s s True :=
  ⟨fun _ _ _ => rfl, iff_of_true rfl trivial⟩

theorem congr (st : Tells s t P) (same : P ↔ Q) : Tells s t Q :=
  ⟨st.delimits, st.eq_iff.trans same⟩

theorem symm (st : Tells s t P) : Tells t s P :=
  ⟨fun r r' same => (st.delimits r' r same.symm).symm, eq_comm.trans st.eq_iff⟩

theorem of_apart (st : Apart s t) (differ : ¬P) : Tells s t P :=
  ⟨fun r r' same => absurd same (st r r'),
    iff_of_false (fun same => st [] [] (by rw [same])) differ⟩

theorem append (st : Tells s t P) (uv : Tells u v Q) : Tells (s ++ u) (t ++ v) (P ∧ Q) where
  delimits r r' same := by
    rw [List.append_assoc, List.append_assoc] at same
    obtain rfl := st.delimits _ _ same
    rw [uv.delimits r r' (List.append_cancel_left same)]
  eq_iff := by
    rw [← st.eq_iff, ← uv.eq_iff]
    refine ⟨fun same => ?_, fun ⟨same, rest⟩ => by rw [same, rest]⟩
    obtain rfl := st.delimits _ _ same
    exact ⟨rfl, List.append_cancel_left same⟩

theorem cons (a : α) (st : Tells s t P) : Tells (a :: s) (a :: t) P :=
  (append (refl [a]) st).congr (iff_of_eq (true_and P))

theorem append_right (st : Tells s t P) (u : List α) : Tells (s ++ u) (t ++ u) P :=
  (append st (refl u)).congr (iff_of_eq (and_true P))

/-- The texts go on differently. -/
theorem append_apart (st : Tells s t P) (uv : Apart u v) : Apart (s ++ u) (t ++ v) := by
  intro r r' same
  rw [List.append_assoc, List.append_assoc] at same
  obtain rfl := st.delimits _ _ same
  exact uv r r' (List.append_cancel_left same)

/-- Filling the slots of a template. -/
theorem flatMap {f g : β → List α} (same : β → Prop) (l : List β)
    (slots : ∀ x ∈ l, Tells (f x) (g x) (same x)) :
    Tells (l.flatMap f) (l.flatMap g) (∀ x ∈ l, same x) := by
  induction l with
  | nil => exact (refl []).congr (iff_of_true trivial nofun)
  | cons x l ih =>
      rw [List.flatMap_cons, List.flatMap_cons]
      refine (append (slots x List.mem_cons_self) (ih fun y mem => ?_)).congr
        List.forall_mem_cons.symm
      exact slots y (List.mem_cons_of_mem x mem)

end Tells

/-- Behind opening letters the first word does not begin like the second. -/
def Unshifted (opening : α → Prop) (s t : List α) : Prop :=
  ∀ p, p ≠ [] → (∀ x ∈ p, opening x) → ∀ r r', p ++ s ++ r ≠ t ++ r'

namespace Unshifted

variable {opening : α → Prop}

/-- The second word begins with a letter that does not open. -/
theorem of_head {b : α} (closed : ¬opening b) : Unshifted opening s (b :: t) := by
  intro p some_ opens r r' same
  cases p with
  | nil => exact some_ rfl
  | cons a p =>
      obtain ⟨rfl, -⟩ := List.cons.inj same
      exact closed (opens a List.mem_cons_self)

theorem append (st : Unshifted opening s t) (u v : List α) :
    Unshifted opening (s ++ u) (t ++ v) := by
  intro p some_ opens r r' same
  refine st p some_ opens (u ++ r) (v ++ r') ?_
  simpa using same

theorem ne_behind {a : α} (open_ : opening a) (st : Unshifted opening s t) {p : List α}
    (opens : ∀ x ∈ p, opening x) (r r' : List α) : p ++ a :: (s ++ r) ≠ t ++ r' := by
  intro same
  refine st (p ++ [a]) (List.append_ne_nil_of_right_ne_nil p (List.cons_ne_nil a [])) ?_ r r' ?_
  · intro x mem
    rcases List.mem_append.mp mem with mem | mem
    · exact opens x mem
    · rw [List.mem_singleton.mp mem]
      exact open_
  · simpa using same

/-- An opening letter in front of the first word only shifts further. -/
theorem longer {a : α} (open_ : opening a) (st : Unshifted opening s t) :
    Unshifted opening (a :: s) t := by
  intro p _ opens r r' same
  refine ne_behind open_ st opens r r' ?_
  simpa using same

/-- The same letter in front of both words, and more letters in front of the second one. -/
theorem behind {a : α} {w : List α} (absent : a ∉ w) (st : Unshifted opening s t) :
    Unshifted opening (a :: s) (a :: (w ++ t)) := by
  intro p some_ opens r r' same
  cases p with
  | nil => exact some_ rfl
  | cons b p =>
      obtain ⟨rfl, same⟩ := List.cons.inj same
      have open_ := opens b List.mem_cons_self
      have opens : ∀ x ∈ p, opening x := fun x mem => opens x (List.mem_cons_of_mem b mem)
      have same : p ++ b :: (s ++ r) = w ++ (t ++ r') := by simpa using same
      rcases List.append_eq_append_iff.mp same with ⟨as, rfl, rest⟩ | ⟨bs, rfl, rest⟩
      · cases as with
        | nil => exact ne_behind (p := []) open_ st (List.forall_mem_nil _) r r' rest
        | cons d as =>
            obtain ⟨rfl, -⟩ := List.cons.inj rest
            exact absent (List.mem_append_right p List.mem_cons_self)
      · refine ne_behind open_ st (fun x mem => ?_) r r' rest.symm
        exact opens x (List.mem_append_right w mem)

theorem cons (a : α) (st : Unshifted opening s t) : Unshifted opening (a :: s) (a :: t) :=
  behind (w := []) List.not_mem_nil st

/-- Opening letters in front of the first word tell it apart. -/
theorem apart {p : List α} (st : Unshifted opening s t) (some_ : p ≠ [])
    (opens : ∀ x ∈ p, opening x) : Apart (p ++ s) t :=
  fun r r' => st p some_ opens r r'

end Unshifted

end SelfDelimiting
