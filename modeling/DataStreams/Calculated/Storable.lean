import DataStreams.Protocol.CanonicalValues

/-! A calculated value is stored if it is within the bounds of decoding, as it is or in
canonical form. -/
namespace DataStreams
namespace Decimal
def Storable (d : Decimal) : Prop :=
  d.coefficientBits ≤ maxDecimalCoefficientBits ∧ d.ExponentInRange

instance (d : Decimal) : Decidable d.Storable :=
  inferInstanceAs (Decidable (_ ∧ _))

/-- The shortest coefficient the number has among the exponents up to the largest one. -/
def compact (d : Decimal) : Decimal :=
  if maxDecimalExponent < d.exponent then
    ⟨d.coefficient * 10 ^ (d.exponent - maxDecimalExponent).toNat,maxDecimalExponent⟩
  else d.canonical

variable {d : Decimal}
lemma Storable.canonical (h : d.Storable) : d.canonical.Storable :=
  ⟨d.coefficientBits_canonical_le.trans h.1,h.2.canonical⟩

lemma toRat_compact (d : Decimal) : d.compact.toRat = d.toRat := by
  unfold compact
  split_ifs with h
  · exact rescale_eq d h.le
  · exact toRat_canonical d

lemma stripped_compact (hne : d.coefficient ≠ 0) : d.compact.Stripped := by
  unfold compact
  split_ifs with h
  · refine ⟨mul_ne_zero hne (pow_ne_zero _ (by decide)),le_rfl,?_⟩
    intro hlt
    exact absurd hlt (lt_irrefl _)
  · exact stripped_canonical hne (not_lt.1 h)

lemma storable_compact {e : Decimal} (hne : d.coefficient ≠ 0) (he : e.Storable) (h : e.toRat = d.toRat) :
    d.compact.Storable := by
  have hne' : e.coefficient ≠ 0 := by rwa [Ne,← toRat_eq_zero_iff,h,toRat_eq_zero_iff]
  have heq : d.compact = e.canonical := by
    apply (stripped_compact hne).eq (stripped_canonical hne' he.2.2)
    rw [toRat_compact,toRat_canonical,h]
  rw [heq]
  exact he.canonical

lemma exists_storable_iff (hne : d.coefficient ≠ 0) :
    (∃ e : Decimal, e.Storable ∧ e.toRat = d.toRat) ↔ d.compact.Storable := by
  constructor
  · rintro ⟨e,he,h⟩
    exact storable_compact hne he h
  · intro h
    exact ⟨d.compact,h,d.toRat_compact⟩

end Decimal

/-- Only a value whose exponent is out of bounds is rewritten. -/
def storableDecimal (d : Decimal) : Except String Decimal := do
  checkDecimalCoefficient d
  match checkDecimalExponent d with
  | .ok () => .ok d
  | .error _ =>
    checkDecimalExponent d.canonical
    .ok d.canonical

variable {d e : Decimal}
lemma storableDecimal_eq_ok :
    storableDecimal d = .ok e ↔ d.coefficientBits ≤ maxDecimalCoefficientBits ∧
      (d.ExponentInRange ∧ e = d ∨ ¬d.ExponentInRange ∧ d.canonical.ExponentInRange ∧ e = d.canonical) := by
  unfold storableDecimal
  rw [Go.check_bind_ok_iff,checkDecimalCoefficient_eq_ok]
  apply and_congr_right
  intro hbits
  cases hexp : checkDecimalExponent d with
  | ok u =>
    have hin : d.ExponentInRange := checkDecimalExponent_eq_ok.1 hexp
    simp only [hin,true_and,not_true_eq_false,false_and,or_false,Except.ok.injEq]
    exact eq_comm
  | error m =>
    have hout : ¬d.ExponentInRange := by
      rw [← checkDecimalExponent_eq_ok,hexp]
      simp
    simp only [hout,false_and,not_false_eq_true,true_and,false_or,Go.check_bind_ok_iff,checkDecimalExponent_eq_ok,
      Except.ok.injEq]
    exact and_congr_right (fun _ => eq_comm)

/-- What is stored decodes again and is the same number. -/
lemma storableDecimal_sound (h : storableDecimal d = .ok e) : e.Storable ∧ e.toRat = d.toRat := by
  obtain ⟨hbits,⟨hin,rfl⟩ | ⟨-,hin,rfl⟩⟩ := storableDecimal_eq_ok.1 h
  · exact ⟨⟨hbits,hin⟩,rfl⟩
  · exact ⟨⟨d.coefficientBits_canonical_le.trans hbits,hin⟩,d.toRat_canonical⟩

lemma storableDecimal_of_compact (hbits : d.coefficientBits ≤ maxDecimalCoefficientBits)
    (hexp : d.exponent ≤ maxDecimalExponent) (h : d.compact.Storable) : ∃ e, storableDecimal d = .ok e := by
  by_cases hin : d.ExponentInRange
  · exact ⟨d,storableDecimal_eq_ok.2 ⟨hbits,.inl ⟨hin,rfl⟩⟩⟩
  · rw [Decimal.compact,if_neg (not_lt.2 hexp)] at h
    exact ⟨_,storableDecimal_eq_ok.2 ⟨hbits,.inr ⟨hin,h.2,rfl⟩⟩⟩

lemma storableDecimal_zero (hzero : d.coefficient = 0) : ∃ e, storableDecimal d = .ok e := by
  have hbits : d.coefficientBits ≤ maxDecimalCoefficientBits := by
    rw [Decimal.coefficientBits,hzero]
    decide
  by_cases hin : d.ExponentInRange
  · exact ⟨d,storableDecimal_eq_ok.2 ⟨hbits,.inl ⟨hin,rfl⟩⟩⟩
  · refine ⟨_,storableDecimal_eq_ok.2 ⟨hbits,.inr ⟨hin,?_,rfl⟩⟩⟩
    rw [Decimal.canonical,if_pos hzero]
    decide

lemma not_storableDecimal_of_exponent (hne : d.coefficient ≠ 0) (hexp : maxDecimalExponent < d.exponent) :
    storableDecimal d ≠ .ok e := by
  intro h
  have hcanonical : d.canonical = d := by
    rw [Decimal.canonical,if_neg hne]
    cases d.coefficientBits with
    | zero => rfl
    | succ fuel => rw [Decimal.stripZeros,if_neg (fun hstep => absurd hstep.1 (not_lt.2 hexp.le))]
  have hout : ¬d.ExponentInRange := fun hin => absurd hin.2 (not_le.2 hexp)
  obtain ⟨-,⟨hin,-⟩ | ⟨-,hin,-⟩⟩ := storableDecimal_eq_ok.1 h
  · exact hout hin
  · rw [hcanonical] at hin
    exact hout hin

/-- A number is refused exactly when it has no stored form, and is otherwise stored unchanged. -/
def StoresWhatHasAForm (d : Decimal) : Prop :=
  ((∃ m, storableDecimal d = .error m) ↔ ¬∃ e : Decimal, e.Storable ∧ e.toRat = d.toRat) ∧
    ∀ e, storableDecimal d = .ok e → e.Storable ∧ e.toRat = d.toRat

lemma storesWhatHasAForm_iff :
    StoresWhatHasAForm d ↔ ((∃ e : Decimal, e.Storable ∧ e.toRat = d.toRat) → ∃ e, storableDecimal d = .ok e) := by
  constructor
  · rintro ⟨hfail,-⟩ hform
    cases h : storableDecimal d with
    | ok e => exact ⟨e,rfl⟩
    | error m => exact absurd hform (hfail.1 ⟨m,h⟩)
  · intro hstored
    refine ⟨⟨?_,?_⟩,fun e => storableDecimal_sound⟩
    · rintro ⟨m,hm⟩ hform
      obtain ⟨e,he⟩ := hstored hform
      rw [hm] at he
      cases he
    · intro hform
      cases h : storableDecimal d with
      | error m => exact ⟨m,rfl⟩
      | ok e => exact absurd ⟨e,storableDecimal_sound h⟩ hform

/-- The check looks at the coefficient before the canonical form is taken, and that form only
moves the exponent up. So what is refused for its form has a coefficient too long or an exponent
too large, and a stored form all the same. -/
theorem storesWhatHasAForm_iff_form (d : Decimal) :
    StoresWhatHasAForm d ↔ d.coefficient = 0 ∨
      (d.coefficientBits ≤ maxDecimalCoefficientBits ∧ d.exponent ≤ maxDecimalExponent) ∨ ¬d.compact.Storable := by
  rw [storesWhatHasAForm_iff]
  by_cases hzero : d.coefficient = 0
  · exact iff_of_true (fun _ => storableDecimal_zero hzero) (.inl hzero)
  rw [Decimal.exists_storable_iff hzero]
  constructor
  · intro h
    by_cases hform : d.compact.Storable
    · obtain ⟨e,he⟩ := h hform
      refine .inr (.inl ⟨(storableDecimal_eq_ok.1 he).1,?_⟩)
      by_contra hexp
      exact not_storableDecimal_of_exponent hzero (not_le.1 hexp) he
    · exact .inr (.inr hform)
  · rintro (hzero' | ⟨hbits,hexp⟩ | hform) h
    · exact absurd hzero' hzero
    · exact storableDecimal_of_compact hbits hexp h
    · exact absurd h hform

/-- `1e1001` is `10e1000` and `1` written with 58 zeros is `1`: both have stored forms and are
refused. -/
theorem refusedForTheirForm : ¬StoresWhatHasAForm ⟨1,1001⟩ ∧ ¬StoresWhatHasAForm ⟨10 ^ 58,-58⟩ := by
  constructor
  · rw [storesWhatHasAForm_iff]
    intro h
    obtain ⟨e,he⟩ := h ⟨⟨10,1000⟩,by decide,(@Decimal.toRat_tdiv 10 1000 (by decide)).symm⟩
    exact not_storableDecimal_of_exponent (by decide) (by decide) he
  · rw [storesWhatHasAForm_iff]
    intro h
    have hone : Decimal.canonical ⟨10 ^ 58,-58⟩ = ⟨1,0⟩ := by decide
    obtain ⟨e,he⟩ := h ⟨⟨1,0⟩,by decide,hone ▸ Decimal.toRat_canonical _⟩
    exact absurd (storableDecimal_eq_ok.1 he).1 (by decide)

end DataStreams
