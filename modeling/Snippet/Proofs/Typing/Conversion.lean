import Snippet.Proofs.Typing.Resolution
import Snippet.Typing.Expression

/-!
Conversions and operators of checked expressions: a value that is used as one of another type keeps
its promises and has the type, and an operator gives what its typing says, also on constants.
-/

namespace Snippet

/-! ### Types of variables -/

namespace Ty.Stores

variable {typing : Typing} {type : Ty}

theorem sits (stores : type.Stores typing) : type.Sits typing :=
  ⟨.inr stores.holds, fun strict => .inr (.inr (stores.defined strict))⟩

theorem ne_void (stores : type.Stores typing) : type ≠ .void := ne_void_of_holdsValues stores.holds

theorem ne_error (stores : type.Stores typing) (strict : typing.Strict) : type ≠ .error := by
  rintro rfl
  exact stores.defined strict

/-- Types without type parameters are types of variables. -/
theorem of_isBasic (basic : type.isBasic = true) : type.Stores typing := by
  cases type <;> first | exact ⟨rfl, fun _ => trivial⟩ | cases basic

end Ty.Stores

namespace Ty.Sits

variable {typing : Typing} {type : Ty}

theorem ne_error (sits : type.Sits typing) (strict : typing.Strict) : type ≠ .error := by
  rintro rfl
  rcases sits.defined strict with isVoid | isNull | defined
  · cases isVoid
  · cases isNull
  · exact defined

/-- What is neither void nor null is a type of variables. -/
theorem stores (sits : type.Sits typing) (hasValue : type ≠ .void) (notNull : type ≠ .null) :
    type.Stores typing :=
  ⟨sits.holds.resolve_left hasValue, fun strict =>
    ((sits.defined strict).resolve_left hasValue).resolve_left notNull⟩

end Ty.Sits

/-! ### Conversions -/

namespace Coercion

theorem widening?_eq_some {source target : Ty} {conversion : NumericConversion}
    (widening : widening? source target = some conversion) :
    source = conversion.source ∧ target = conversion.target := by
  unfold widening? at widening
  split at widening <;> cases widening <;> exact ⟨rfl, rfl⟩

theorem narrowing?_eq_some {source target : Ty} {conversion : NumericConversion}
    (narrowing : narrowing? source target = some conversion) :
    source = conversion.source ∧ target = conversion.target := by
  unfold narrowing? at narrowing
  split at narrowing <;> cases narrowing <;> exact ⟨rfl, rfl⟩

/-- What a coercion without a cast may be. -/
theorem implicit?_cases {source target : Ty} {coercion : Coercion}
    (implicit : implicit? source target = some coercion) :
    (coercion = .identity ∧ (source = target ∨ source = .error ∨ target = .error)) ∨
      (∃ conversion : NumericConversion, coercion = .convert (.numeric conversion) ∧
        source = conversion.source ∧ target = conversion.target) ∨
      (coercion = .reference ∧ source ≠ .void ∧ source.Widens target) := by
  unfold implicit? at implicit
  split at implicit
  · next same => exact .inl ⟨(Option.some.inj implicit).symm, same⟩
  · split at implicit
    · next conversion widening =>
      exact .inr (.inl ⟨conversion, (Option.some.inj implicit).symm, widening?_eq_some widening⟩)
    · refine .inr (.inr ?_)
      split at implicit
      · split at implicit
        · next isReference =>
          exact ⟨(Option.some.inj implicit).symm, nofun, .inr (.inl ⟨rfl, isReference⟩)⟩
        · cases implicit
      · cases implicit
      · next _ hasValue _ _ =>
        exact ⟨(Option.some.inj implicit).symm, hasValue, .inr (.inr ⟨rfl, hasValue⟩)⟩
      · cases implicit

/-- What a coercion may be that a cast asks for. -/
theorem explicit?_cases {source target : Ty} {coercion : Coercion}
    (explicit : explicit? source target = some coercion) :
    implicit? source target = some coercion ∨
      (∃ conversion : NumericConversion, coercion = .convert (.numeric conversion) ∧
        source = conversion.source ∧ target = conversion.target) ∨
      (coercion = .convert (.cast target.fullName) ∧ source = .object) := by
  unfold explicit? at explicit
  split at explicit
  · next implicit => exact .inl (implicit.trans explicit)
  · split at explicit
    · next conversion narrowing =>
      exact .inr (.inl ⟨conversion, (Option.some.inj explicit).symm, narrowing?_eq_some narrowing⟩)
    · refine .inr (.inr ?_)
      split at explicit
      · cases explicit
      · cases explicit
      · exact ⟨(Option.some.inj explicit).symm, rfl⟩
      · cases explicit

end Coercion

/-- A refused conversion is an error. -/
theorem conversionProblem_isError (source target : Ty) : (conversionProblem source target).isWarning = false := by
  unfold conversionProblem
  split <;> rfl

/-- A value is used as one of another type by an implicit conversion, or refused with an error. -/
theorem TypedExpr.resolves_coerce {good : TypedExpr → Prop} {value : TypedExpr} {target : Ty}
    (coerced : ∀ coercion, Coercion.implicit? value.type target = some coercion → good (value.coerced coercion target)) :
    Resolves good (value.coerce target) := by
  unfold coerce
  split
  · next coercion implicit => exact coerced coercion implicit
  · simp [Resolves, Finding.isError, conversionProblem_isError]

/-- A converted constant is one of the type that the conversion gives. -/
theorem NumericConversion.admits_folded {conversion : NumericConversion} {value folded : Constant}
    (admits : conversion.source.AdmitsConstant value)
    (folds : Constant.ofValue? (conversion.apply value.toValue) = some folded) :
    conversion.target.AdmitsConstant folded := by
  cases conversion <;> cases value <;> first | exact absurd admits id | (cases folds; trivial)

theorem NumericConversion.target_isBasic (conversion : NumericConversion) :
    conversion.target.isBasic = true := by
  cases conversion <;> rfl

namespace TypedExpr

variable {typing : Typing} {value : TypedExpr} {target : Ty}

/-- A constant expression is a constant node. -/
theorem node_of_constant? {constant : Constant} (isConstant : value.constant? = some constant) :
    value.node = .const constant := by
  unfold constant? at isConstant
  split at isConstant
  · cases isConstant
    rfl
  · cases isConstant

/-- A constant that keeps its promises belongs to its type. -/
theorem Fits.admitsConstant (fits : value.Fits typing) {constant : Constant}
    (isConstant : value.constant? = some constant) (strict : typing.Strict) :
    value.type.AdmitsConstant constant := by
  have fitsNode := fits.node
  rw [node_of_constant? isConstant, TypedNode.Fits] at fitsNode
  exact fitsNode.2 strict

/-- A constant keeps its promises at every type that admits it. -/
theorem checked_const {constant : Constant} {type : Ty} {span : Span} (sits : type.Sits typing)
    (hasValue : type ≠ .void) (admits : typing.Strict → type.AdmitsConstant constant) :
    (TypedExpr.mk (.const constant) type span).Checked typing := by
  refine ⟨fits_mk ?_, sits⟩
  rw [TypedNode.Fits]
  exact ⟨hasValue, admits⟩

theorem checked_constant (constant : Constant) (span : Span) :
    (TypedExpr.constant constant span).Checked typing := by
  have hasValue : Ty.ofConstant constant ≠ .void := by cases constant <;> nofun
  refine checked_const ⟨.inr (by cases constant <;> rfl), fun _ => ?_⟩ hasValue fun _ =>
    Ty.ofConstant_admits constant
  cases constant <;> first | exact .inr (.inl rfl) | exact .inr (.inr trivial)

/-- What stands for an error is good where types of members may be open. -/
theorem checked_wrong (loose : ¬typing.Strict) (span : Span) : (wrong span).Checked typing :=
  checked_const ⟨.inr rfl, fun strict => absurd strict loose⟩ nofun fun strict => absurd strict loose

namespace Checked

/-- A numeric conversion of a checked number, which is carried out at once on a constant. -/
theorem numeric (checked : value.Checked typing) {conversion : NumericConversion}
    (isSource : value.type = conversion.source) :
    (value.coerced (.convert (.numeric conversion)) conversion.target).Checked typing ∧
      (value.coerced (.convert (.numeric conversion)) conversion.target).type = conversion.target := by
  have stores : conversion.target.Stores typing := .of_isBasic conversion.target_isBasic
  have converted : (TypedExpr.mk (.convert (.numeric conversion) value) conversion.target
      value.span).Checked typing := by
    refine ⟨fits_mk ?_, stores.sits⟩
    rw [TypedNode.Fits]
    exact ⟨stores.ne_void, checked.fits, fun _ => ⟨isSource, .refl _⟩⟩
  simp only [coerced]
  split
  · next numeric constant sameConversion isConstant =>
    cases sameConversion
    split
    · next folded folds =>
      refine ⟨checked_const stores.sits stores.ne_void fun strict => ?_, rfl⟩
      exact NumericConversion.admits_folded
        (isSource ▸ checked.fits.admitsConstant isConstant strict) folds
    · exact ⟨converted, rfl⟩
  · exact ⟨converted, rfl⟩

/-- A checked value that is used by a coercion. -/
theorem coerced (checked : value.Checked typing) (stores : target.Stores typing) {coercion : Coercion}
    (implicit : Coercion.implicit? value.type target = some coercion) :
    (value.coerced coercion target).Checked typing ∧
      (typing.Strict → (value.coerced coercion target).type = target) ∧
      (target ≠ .error → (value.coerced coercion target).type ≠ .void) := by
  rcases Coercion.implicit?_cases implicit with
    ⟨rfl, same⟩ | ⟨conversion, rfl, isSource, rfl⟩ | ⟨rfl, hasValue, widens⟩
  · refine ⟨checked, fun strict => ?_, fun written isVoid => ?_⟩
    · rcases same with same | isError | isError
      · exact same
      · exact absurd isError (checked.type.ne_error strict)
      · exact absurd isError (stores.ne_error strict)
    · have isVoid : value.type = .void := isVoid
      rcases same with same | isError | isError
      · exact stores.ne_void (same.symm.trans isVoid)
      · rw [isError] at isVoid
        cases isVoid
      · exact written isError
  · obtain ⟨good, isTarget⟩ := checked.numeric isSource
    exact ⟨good, fun _ => isTarget, fun _ => isTarget.trans_ne stores.ne_void⟩
  · refine ⟨⟨fits_mk ?_, stores.sits⟩, fun _ => rfl, fun _ => stores.ne_void⟩
    exact checked.fits.node.relabel hasValue stores.ne_void fun _ => widens

/-- A checked value behind a cast. -/
theorem cast (checked : value.Checked typing) (named : target.Named typing) {coercion : Coercion}
    (explicit : Coercion.explicit? value.type target = some coercion) (span : Span) :
    (TypedExpr.mk (value.coerced coercion target).node target span).Checked typing := by
  refine ⟨fits_mk ?_, named.sits⟩
  rcases Coercion.explicit?_cases explicit with implicit | ⟨conversion, rfl, isSource, rfl⟩ | ⟨rfl, isObject⟩
  · obtain ⟨good, isTarget, hasValue⟩ := checked.coerced named.toStores implicit
    exact good.fits.node.relabel (hasValue named.written) named.ne_void fun strict => .inl (isTarget strict)
  · obtain ⟨good, isTarget⟩ := checked.numeric isSource
    have fitsNode := good.fits.node
    rwa [isTarget] at fitsNode
  · have isNode : (value.coerced (.convert (.cast target.fullName)) target).node =
        .convert (.cast target.fullName) value := rfl
    rw [isNode, TypedNode.Fits]
    refine ⟨named.ne_void, checked.fits, fun strict => ⟨?_, target, named.defined strict, rfl, .refl _⟩⟩
    simp [isObject]

end Checked

/-- The use of a value as one of another type. It is refused with an error, and a checked value stays
checked. -/
theorem coerce_resolves (typing : Typing) (value : TypedExpr) (target : Ty) :
    Resolves (fun used => value.Checked typing → target.Stores typing →
      used.Checked typing ∧ (typing.Strict → used.type = target)) (value.coerce target) := by
  refine resolves_coerce fun coercion implicit checked stores => ?_
  obtain ⟨good, isTarget, -⟩ := checked.coerced stores implicit
  exact ⟨good, isTarget⟩

end TypedExpr

namespace Check.Yields

variable {typing : Typing} {context : BodyContext} {before : BodyState} {known : Prop}

theorem ofResolves {α : Type} {result : Except Finding α} {good : α → Prop}
    (resolves : Resolves good result) :
    Yields typing context before known (Check.ofExcept result) good := by
  cases result with
  | ok value => exact .pure fun _ => resolves
  | error finding => exact .throw resolves

/-- The use of a value as one of another type. -/
theorem coerce {value : TypedExpr} {target : Ty} (checked : known → value.Checked typing)
    (stores : known → target.Stores typing) :
    Yields typing context before known (Check.ofExcept (value.coerce target)) fun used =>
      used.Checked typing ∧ (typing.Strict → used.type = target) :=
  (ofResolves (value.coerce_resolves typing target)).mono id fun _ holds good => good (checked holds) (stores holds)

end Check.Yields

end Snippet
