import Lisp.Proofs.Arithmetic.Exactness
import Lisp.Proofs.Equality.Sharing
import Lisp.Proofs.Places.Erasure

/-!
The two equalities on plain data: on values without doubles and procedures, and
without big integers that would fit in a word, they agree.  There strict equality
is an equivalence, and two values are equal if they were written alike: where
they were written and which cells hold them does not count.
-/

namespace Lisp

variable {H : Type}

/-- Whether a value that is not a cell is plain data. -/
def Value.isDataAtom : Value H → Bool
  | .nil | .bool _ | .int _ | .str _ | .ref _ _ => true
  | .big n => !fitsWord n
  | _ => false

/-- Whether a value is plain data, cells included. -/
def Value.isData (v : Value H) : Bool :=
  v.everyAtom Value.isDataAtom

/-- The same value without places, and with one identity for all its cells. -/
def Value.unmarked : Value H → Value H
  | .ref name _ => .ref name none
  | .pair _ car cdr _ => .pair default car.unmarked cdr.unmarked none
  | v => v

section Atoms

variable {a b : Value H}

/-- Integers are compared as integers, whatever their kinds. -/
theorem Value.equalAtom_of_integers {m n : Int} (ha : a.integer? = some m)
    (hb : b.integer? = some n) : a.equalAtom b = .ok (decide (m = n)) := by
  have horder : (some (compare m n) == some .eq) = decide (m = n) := by
    rw [Bool.eq_iff_iff, beq_iff_eq, decide_eq_true_iff, Option.some_inj,
      compare_eq_iff_eq]
  cases a with
  | int | big =>
      obtain rfl := Option.some.inj ha
      cases b with
      | int | big =>
          obtain rfl := Option.some.inj hb
          rw [← horder]
          rfl
      | _ => cases hb
  | _ => cases ha

/-- A big integer that does not fit in a word is no machine integer. -/
theorem toInt_ne_of_not_fitsWord {n : Int} (hn : (!fitsWord n) = true)
    (m : Int64) : m.toInt ≠ n := by
  rintro rfl
  rw [fitsWord_toInt] at hn
  cases hn

/-- On the atoms of plain data both equalities agree. -/
theorem Value.equalAtom_iff_sameAtom (ha : a.isDataAtom = true)
    (hb : b.isDataAtom = true) :
    a.equalAtom b = .ok true ↔ a.sameAtom b = true := by
  cases a with
  | int m =>
      cases b with
      | int n =>
          rw [equalAtom_of_integers rfl rfl]
          simp [sameAtom, Int64.toInt_inj]
      | big n =>
          rw [equalAtom_of_integers rfl rfl]
          simp [sameAtom, toInt_ne_of_not_fitsWord hb m]
      | float => cases hb
      | _ => simp [equalAtom, sameAtom, isNil, number?]
  | big m =>
      cases b with
      | int n =>
          rw [equalAtom_of_integers rfl rfl]
          simp [sameAtom, (toInt_ne_of_not_fitsWord ha n).symm]
      | big n =>
          rw [equalAtom_of_integers rfl rfl]
          simp [sameAtom]
      | float => cases hb
      | _ => simp [equalAtom, sameAtom, isNil, number?]
  | float | pair | closure | expander | native => cases ha
  | _ => cases b <;> simp [equalAtom, sameAtom, isNil, number?]

theorem Value.sameAtom_iff_unmarked_eq (ha : a.isDataAtom = true)
    (hb : b.isDataAtom = true) :
    a.sameAtom b = true ↔ a.unmarked = b.unmarked := by
  cases a with
  | float | pair | closure | expander | native => cases ha
  | _ =>
      cases b with
      | float | pair | closure | expander | native => cases hb
      | _ => simp [sameAtom, unmarked]

end Atoms

section Mixed

variable {a b : Value H}

/-- A cell and anything else are never equal for programs. -/
theorem Value.settle_of_mixed (hmixed : a.isPair ≠ b.isPair) (inTail : Bool) :
    a.settle b inTail ≠ .ok true := by
  have hatom : a.equalAtom b ≠ .ok true := by
    cases a with
    | pair =>
        cases b with
        | pair => exact absurd rfl hmixed
        | _ => simp [equalAtom, isNil, number?]
    | _ =>
        cases b with
        | pair => simp [equalAtom, isNil, number?]
        | _ => exact absurd rfl hmixed
  unfold settle
  split
  · simp
  · exact hatom

theorem Value.sameAtom_of_mixed (hmixed : a.isPair ≠ b.isPair) :
    a.sameAtom b = false := by
  cases a with
  | pair => cases b <;> rfl
  | _ =>
      cases b with
      | pair => rfl
      | _ => exact absurd rfl hmixed

theorem Value.unmarked_ne_of_mixed (hmixed : a.isPair ≠ b.isPair) :
    a.unmarked ≠ b.unmarked := by
  have hkept : ∀ v : Value H, v.unmarked.isPair = v.isPair := by
    intro v
    cases v <;> rfl
  intro hsame
  apply hmixed
  rw [← hkept a, ← hkept b, hsame]

/-- Two values of plain data that are not both cells: one of them is, or they are
atoms both. -/
theorem Value.mixed_or_atoms (ha : a.isData = true) (hb : b.isData = true)
    (hapart : (a.isPair && b.isPair) = false) :
    a.isPair ≠ b.isPair ∨
      a.isPair = false ∧ b.isPair = false ∧ a.isDataAtom = true ∧
        b.isDataAtom = true := by
  by_cases hmixed : a.isPair = b.isPair
  · have hleft : a.isPair = false := by
      rwa [← hmixed, Bool.and_self] at hapart
    have hright : b.isPair = false := hmixed.symm.trans hleft
    rw [isData, everyAtom_of_not_isPair hleft] at ha
    rw [isData, everyAtom_of_not_isPair hright] at hb
    exact Or.inr ⟨hleft, hright, ha, hb⟩
  · exact Or.inl hmixed

end Mixed

section Agreement

variable {a b : Value H}

theorem followUp_eq_ok_true_iff {ε : Type} (verdict next : Except ε Bool) :
    followUp verdict next = .ok true ↔ verdict = .ok true ∧ next = .ok true := by
  match verdict with
  | .ok true => simp
  | .ok false => simp [followUp]
  | .error cause => simp [followUp]

theorem Value.isData_pair_iff {i : ObjectId} {d : Value H}
    {p : Option Location} :
    (Value.pair i a d p).isData = true ↔ a.isData = true ∧ d.isData = true :=
  Bool.and_eq_true_iff

/-- Programs find two values of plain data equal just where they are strictly
equal. -/
theorem Value.equalAt_iff_sameAs (ha : a.isData = true) (hb : b.isData = true)
    (inTail : Bool) : a.equalAt b inTail = .ok true ↔ a.sameAs b = true := by
  induction a, b using Value.sideBySide generalizing inTail with
  | apart a b hapart =>
      rw [equalAt_of_apart hapart, sameAs_of_apart hapart]
      rcases mixed_or_atoms ha hb hapart with
        hmixed | ⟨hleft, hright, hleftData, hrightData⟩
      · rw [sameAtom_of_mixed hmixed]
        exact iff_of_false (settle_of_mixed hmixed inTail) Bool.false_ne_true
      · rw [settle_of_atoms hleft hright]
        exact equalAtom_iff_sameAtom hleftData hrightData
  | cells i a d p j b e q ihcar ihcdr =>
      rw [isData_pair_iff] at ha hb
      rw [equalAt, sameAs]
      by_cases hsame : i = j
      · simp [hsame]
      · rw [if_neg hsame, followUp_eq_ok_true_iff, ihcar ha.1 hb.1,
          ihcdr ha.2 hb.2]
        simp [hsame]

theorem Value.sameAs_symm (ha : a.isData = true) (hb : b.isData = true)
    (hsame : a.sameAs b = true) : b.sameAs a = true := by
  induction a, b using Value.sideBySide with
  | apart a b hapart =>
      have hapart' : (b.isPair && a.isPair) = false := by
        rw [Bool.and_comm, hapart]
      rw [sameAs_of_apart hapart] at hsame
      rw [sameAs_of_apart hapart']
      rcases mixed_or_atoms ha hb hapart with hmixed | ⟨-, -, hleft, hright⟩
      · rw [sameAtom_of_mixed hmixed] at hsame
        cases hsame
      · rw [sameAtom_iff_unmarked_eq hleft hright] at hsame
        exact (sameAtom_iff_unmarked_eq hright hleft).mpr hsame.symm
  | cells i a d p j b e q ihcar ihcdr =>
      rw [isData_pair_iff] at ha hb
      simp only [sameAs, Bool.or_eq_true, Bool.and_eq_true,
        decide_eq_true_iff] at hsame ⊢
      rcases hsame with hid | ⟨hcar, hcdr⟩
      · exact Or.inl hid.symm
      · exact Or.inr ⟨ihcar ha.1 hb.1 hcar, ihcdr ha.2 hb.2 hcdr⟩

theorem Value.sameAs_of_unmarked_eq (ha : a.isData = true)
    (hb : b.isData = true) (hsame : a.unmarked = b.unmarked) :
    a.sameAs b = true := by
  induction a, b using Value.sideBySide with
  | apart a b hapart =>
      rw [sameAs_of_apart hapart]
      rcases mixed_or_atoms ha hb hapart with hmixed | ⟨-, -, hleft, hright⟩
      · exact absurd hsame (unmarked_ne_of_mixed hmixed)
      · exact (sameAtom_iff_unmarked_eq hleft hright).mpr hsame
  | cells i a d p j b e q ihcar ihcdr =>
      rw [isData_pair_iff] at ha hb
      obtain ⟨-, hcar, hcdr, -⟩ := Value.pair.inj hsame
      simp only [sameAs, ihcar ha.1 hb.1 hcar, ihcdr ha.2 hb.2 hcdr,
        Bool.and_self, Bool.or_true]

/-- In one store, strictly equal values of plain data are written alike. -/
theorem Value.unmarked_eq_of_sameAs {store : ObjectId → Value H × Value H}
    (ha : a.isData = true) (hb : b.isData = true) (hleft : a.StoredIn store)
    (hright : b.StoredIn store) (hsame : a.sameAs b = true) :
    a.unmarked = b.unmarked := by
  induction a, b using Value.sideBySide with
  | apart a b hapart =>
      rw [sameAs_of_apart hapart] at hsame
      rcases mixed_or_atoms ha hb hapart with hmixed | ⟨-, -, hatom, hatom'⟩
      · rw [sameAtom_of_mixed hmixed] at hsame
        cases hsame
      · exact (sameAtom_iff_unmarked_eq hatom hatom').mp hsame
  | cells i a d p j b e q ihcar ihcdr =>
      rw [isData_pair_iff] at ha hb
      obtain ⟨hheld, hcarLeft, hcdrLeft⟩ := hleft
      obtain ⟨hheld', hcarRight, hcdrRight⟩ := hright
      simp only [sameAs, Bool.or_eq_true, Bool.and_eq_true,
        decide_eq_true_iff] at hsame
      rcases hsame with rfl | ⟨hcar, hcdr⟩
      · -- one identity is one cell
        obtain ⟨rfl, rfl⟩ := Prod.mk.inj (hheld.symm.trans hheld')
        rfl
      · rw [unmarked, unmarked, ihcar ha.1 hb.1 hcarLeft hcarRight hcar,
          ihcdr ha.2 hb.2 hcdrLeft hcdrRight hcdr]

theorem Value.sameAs_bare (a b : Value H) :
    a.bare.sameAs b.bare = a.sameAs b := by
  induction a, b using Value.sideBySide with
  | apart a b hapart =>
      have hbare : (a.bare.isPair && b.bare.isPair) = false := by
        rwa [isPair_bare, isPair_bare]
      rw [sameAs_of_apart hapart, sameAs_of_apart hbare]
      cases a <;> cases b <;> rfl
  | cells i a d p j b e q ihcar ihcdr =>
      simp only [bare, sameAs, ihcar, ihcdr]

end Agreement

/-- On plain data the two equalities agree: programs find two values equal just
where they are strictly equal.  Strict equality is reflexive and symmetric there,
and in one store transitive; places never count, and in one store two values are
equal just where they are written alike, whichever cells hold them. -/
theorem data_equalities_agree (a b c : Value H) (ha : a.isData = true)
    (hb : b.isData = true) (hc : c.isData = true) :
    (a.equal b = .ok true ↔ a.identical b = true) ∧
    a.identical a = true ∧
    (a.identical b = true → b.identical a = true) ∧
    (∀ store, a.StoredIn store → b.StoredIn store → c.StoredIn store →
      a.identical b = true → b.identical c = true → a.identical c = true) ∧
    (∀ a' b' : Value H, a'.bare = a.bare → b'.bare = b.bare →
      a'.identical b' = a.identical b) ∧
    ∀ store, a.StoredIn store → b.StoredIn store →
      (a.identical b = true ↔ a.unmarked = b.unmarked) := by
  simp only [Value.equal_eq_equalAt, Value.identical_eq_sameAs]
  refine ⟨Value.equalAt_iff_sameAs ha hb false,
    Value.sameAs_of_unmarked_eq ha ha rfl, Value.sameAs_symm ha hb, ?_, ?_, ?_⟩
  · intro store hleft hmiddle hright hab hbc
    apply Value.sameAs_of_unmarked_eq ha hc
    calc a.unmarked
      _ = b.unmarked := Value.unmarked_eq_of_sameAs ha hb hleft hmiddle hab
      _ = c.unmarked := Value.unmarked_eq_of_sameAs hb hc hmiddle hright hbc
  · intro a' b' hleft hright
    rw [← Value.sameAs_bare a' b', hleft, hright, Value.sameAs_bare]
  · intro store hleft hright
    exact ⟨Value.unmarked_eq_of_sameAs ha hb hleft hright,
      Value.sameAs_of_unmarked_eq ha hb⟩

/-- A dotted list of a name and a big integer, as written on one line and held by
cells of its own. -/
def sampleCopy (line : Nat) : Value Empty :=
  .pair (.made line 0) (.ref "x" (some ⟨"page", line, 2⟩))
    (.pair (.made line 1) (.big 9223372036854775808) (.str "é") none)
    (some ⟨"page", line, 1⟩)

/-- The store of these lists. -/
def sampleLines : ObjectId → Value Empty × Value Empty
  | .made line 0 =>
      (.ref "x" (some ⟨"page", line, 2⟩),
        .pair (.made line 1) (.big 9223372036854775808) (.str "é") none)
  | _ => (.big 9223372036854775808, .str "é")

/-- Copies on three lines are equal in both ways. -/
theorem sampleCopy_equalities :
    (sampleCopy 1).equal (sampleCopy 2) = .ok true ∧
      (sampleCopy 1).identical (sampleCopy 3) = true := by
  have hdata : ∀ line, (sampleCopy line).isData = true := fun _ => rfl
  have hstored : ∀ line, (sampleCopy line).StoredIn sampleLines :=
    fun _ => ⟨rfl, trivial, rfl, trivial, trivial⟩
  obtain ⟨hagree, -, -, htrans, -, hwritten⟩ :=
    data_equalities_agree (sampleCopy 1) (sampleCopy 2) (sampleCopy 3)
      (hdata 1) (hdata 2) (hdata 3)
  obtain ⟨-, -, -, -, -, hwritten'⟩ :=
    data_equalities_agree (sampleCopy 2) (sampleCopy 3) (sampleCopy 3)
      (hdata 2) (hdata 3) (hdata 3)
  have hfirst : (sampleCopy 1).identical (sampleCopy 2) = true :=
    (hwritten sampleLines (hstored 1) (hstored 2)).mpr rfl
  have hsecond : (sampleCopy 2).identical (sampleCopy 3) = true :=
    (hwritten' sampleLines (hstored 2) (hstored 3)).mpr rfl
  refine ⟨hagree.mpr hfirst, ?_⟩
  exact htrans sampleLines (hstored 1) (hstored 2) (hstored 3) hfirst hsecond

end Lisp
