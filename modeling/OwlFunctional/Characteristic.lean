import OwlFunctional.Connective

/-! What axioms say about a property as such. -/

set_option autoImplicit false

namespace OwlFunctional

inductive Characteristic where
  | stated (characteristic : ObjectCharacteristic)
  /-- The property is one side of two inverse properties. -/
  | hasInverse
  deriving DecidableEq, Repr

namespace Characteristic

def all : List Characteristic := ObjectCharacteristic.all.map stated ++ [hasInverse]

theorem mem_all (characteristic : Characteristic) : characteristic ∈ all := by
  cases characteristic with
  | stated characteristic => simp [all, ObjectCharacteristic.mem_all]
  | hasInverse => simp [all]

def name : Characteristic → String
  | stated .functional => "Functional"
  | stated .inverseFunctional => "InverseFunctional"
  | stated .reflexive => "Reflexive"
  | stated .irreflexive => "Irreflexive"
  | stated .symmetric => "Symmetric"
  | stated .asymmetric => "Asymmetric"
  | stated .transitive => "Transitive"
  | hasInverse => "HasInverse"

/-- What a property has if its inverse has the given characteristic. -/
def inverse : Characteristic → Characteristic
  | stated characteristic => stated characteristic.inverse
  | hasInverse => hasInverse

theorem inverse_inverse (characteristic : Characteristic) :
    characteristic.inverse.inverse = characteristic := by
  cases characteristic with
  | stated characteristic => simp [inverse, ObjectCharacteristic.inverse_inverse]
  | hasInverse => rfl

end Characteristic

structure CharacteristicSet where
  has : Characteristic → Bool

namespace CharacteristicSet

def empty : CharacteristicSet := ⟨fun _ => false⟩

def single (characteristic : Characteristic) : CharacteristicSet := ⟨fun other => other == characteristic⟩

def union (first second : CharacteristicSet) : CharacteristicSet :=
  ⟨fun characteristic => first.has characteristic || second.has characteristic⟩

def ofList (members : List Characteristic) : CharacteristicSet := ⟨members.contains⟩

def toList (set : CharacteristicSet) : List Characteristic := Characteristic.all.filter set.has

def isEmpty (set : CharacteristicSet) : Bool := set.toList.isEmpty

def includes (set other : CharacteristicSet) : Bool :=
  Characteristic.all.all fun characteristic => !other.has characteristic || set.has characteristic

def inverse (set : CharacteristicSet) : CharacteristicSet :=
  ⟨fun characteristic => set.has characteristic.inverse⟩

end CharacteristicSet

end OwlFunctional
