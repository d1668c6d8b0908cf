/-! The words that class expressions, data ranges and property axioms are built with. -/

set_option autoImplicit false

namespace OwlFunctional

inductive Junction where
  | intersection
  | union
  deriving DecidableEq, Repr

inductive Quantifier where
  | some
  | all
  deriving DecidableEq, Repr

/-- The sense of a cardinality restriction. -/
inductive Bound where
  | min
  | max
  | exact
  deriving DecidableEq, Repr

inductive ObjectCharacteristic where
  | functional
  | inverseFunctional
  | reflexive
  | irreflexive
  | symmetric
  | asymmetric
  | transitive
  deriving DecidableEq, Repr

namespace ObjectCharacteristic

def all : List ObjectCharacteristic :=
  [functional, inverseFunctional, reflexive, irreflexive, symmetric, asymmetric, transitive]

theorem mem_all (characteristic : ObjectCharacteristic) : characteristic ∈ all := by
  cases characteristic <;> decide

/-- What a property has if its inverse has the given characteristic. -/
def inverse : ObjectCharacteristic → ObjectCharacteristic
  | functional => inverseFunctional
  | inverseFunctional => functional
  | other => other

theorem inverse_inverse (characteristic : ObjectCharacteristic) :
    characteristic.inverse.inverse = characteristic := by
  cases characteristic <;> rfl

end ObjectCharacteristic

end OwlFunctional
