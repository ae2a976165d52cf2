import PropValidators.Validator
/-!
Equality of validators is decidable, and with it that of the entries of shapes.
-/
namespace PropValidators

mutual

def Validator.decEq : (a b : Validator) → Decidable (a = b)
  | .member m, .member n => decidable_of_iff (m = n) (by simp)
  | .call f as, .call g bs =>
    have := Argument.listDecEq as bs
    decidable_of_iff (f = g ∧ as = bs) (by simp)
  | .required v, .required w =>
    have := Validator.decEq v w
    decidable_of_iff (v = w) (by simp)
  | .member _, .call .. | .member _, .required _ | .call .., .member _ | .call .., .required _
  | .required _, .member _ | .required _, .call .. => .isFalse (by simp)

def Argument.listDecEq : (as bs : List Argument) → Decidable (as = bs)
  | [], [] => .isTrue rfl
  | .validator v :: as, .validator w :: bs =>
    have := Validator.decEq v w
    have := Argument.listDecEq as bs
    decidable_of_iff (v = w ∧ as = bs) (by simp)
  | .array es :: as, .array fs :: bs =>
    have := Element.listDecEq es fs
    have := Argument.listDecEq as bs
    decidable_of_iff (es = fs ∧ as = bs) (by simp)
  | .object ps :: as, .object qs :: bs =>
    have := Assignment.listDecEq ps qs
    have := Argument.listDecEq as bs
    decidable_of_iff (ps = qs ∧ as = bs) (by simp)
  | .validator _ :: _, .array _ :: _ | .validator _ :: _, .object _ :: _
  | .array _ :: _, .validator _ :: _ | .array _ :: _, .object _ :: _
  | .object _ :: _, .validator _ :: _ | .object _ :: _, .array _ :: _
  | [], _ :: _ | _ :: _, [] => .isFalse (by simp)

def Element.listDecEq : (es fs : List Element) → Decidable (es = fs)
  | [], [] => .isTrue rfl
  | .validator v :: es, .validator w :: fs =>
    have := Validator.decEq v w
    have := Element.listDecEq es fs
    decidable_of_iff (v = w ∧ es = fs) (by simp)
  | .literal v :: es, .literal w :: fs =>
    have := Element.listDecEq es fs
    decidable_of_iff (v = w ∧ es = fs) (by simp)
  | .validator _ :: _, .literal _ :: _ | .literal _ :: _, .validator _ :: _
  | [], _ :: _ | _ :: _, [] => .isFalse (by simp)

def Assignment.listDecEq : (ps qs : List Assignment) → Decidable (ps = qs)
  | [], [] => .isTrue rfl
  | .mk k v :: ps, .mk l w :: qs =>
    have := Validator.decEq v w
    have := Assignment.listDecEq ps qs
    decidable_of_iff ((k = l ∧ v = w) ∧ ps = qs) (by simp)
  | [], _ :: _ | _ :: _, [] => .isFalse (by simp)

end

instance : DecidableEq Validator := Validator.decEq

instance : DecidableEq Assignment
  | .mk k v, .mk l w => decidable_of_iff (k = l ∧ v = w) (by simp)

end PropValidators
