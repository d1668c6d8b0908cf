import OwlFunctional.Characteristic
import OwlFunctional.Ordered
import OwlFunctional.Store

/-! The store in memory: entities by kind, and axioms in reading order.

For each kind the entities are listed once, in the order of their names, with the way in which
they came to be declared. A declaration of an entity that was used before takes the place of the
entry that the use made.
-/

set_option autoImplicit false

namespace OwlFunctional

/-- What happens if a statement uses an entity that is not declared. -/
inductive Policy where
  | explicit
  | implicit
  deriving DecidableEq, Repr

/-- How an entity came to be declared. -/
inductive Origin where
  | explicit
  | implicit
  deriving DecidableEq, Repr

structure Entry where
  iri : Iri
  origin : Origin
  deriving DecidableEq, Repr

namespace Entry

def origin? (entries : List Entry) (iri : Iri) : Option Origin :=
  (entries.find? fun entry => entry.iri == iri).map (·.origin)

def key (entry : Entry) : String := entry.iri.text

theorem key_eq_iff {first second : Entry} : first.key = second.key ↔ first.iri = second.iri := by
  rcases first with ⟨⟨_⟩, _⟩
  rcases second with ⟨⟨_⟩, _⟩
  simp [key]

end Entry

structure ByKind (α : Type) where
  annotationProperty : α
  owlClass : α
  dataProperty : α
  datatype : α
  namedIndividual : α
  objectProperty : α

namespace ByKind

variable {α : Type}

def fill (value : α) : ByKind α := ⟨value, value, value, value, value, value⟩

def get (table : ByKind α) : EntityKind → α
  | .annotationProperty => table.annotationProperty
  | .owlClass => table.owlClass
  | .dataProperty => table.dataProperty
  | .datatype => table.datatype
  | .namedIndividual => table.namedIndividual
  | .objectProperty => table.objectProperty

def set (table : ByKind α) (kind : EntityKind) (value : α) : ByKind α :=
  match kind with
  | .annotationProperty => { table with annotationProperty := value }
  | .owlClass => { table with owlClass := value }
  | .dataProperty => { table with dataProperty := value }
  | .datatype => { table with datatype := value }
  | .namedIndividual => { table with namedIndividual := value }
  | .objectProperty => { table with objectProperty := value }

@[simp] theorem get_set_self (table : ByKind α) (kind : EntityKind) (value : α) :
    (table.set kind value).get kind = value := by
  cases kind <;> rfl

theorem get_set_of_ne (table : ByKind α) {kind other : EntityKind} (value : α)
    (different : other ≠ kind) : (table.set kind value).get other = table.get other := by
  cases kind <;> cases other <;> first | rfl | exact absurd rfl different

@[simp] theorem get_fill (value : α) (kind : EntityKind) : (fill value).get kind = value := by
  cases kind <;> rfl

theorem forall_get_set {holds : α → Prop} {table : ByKind α} (all : ∀ kind, holds (table.get kind))
    (kind : EntityKind) {value : α} (given : holds value) (other : EntityKind) :
    holds ((table.set kind value).get other) := by
  by_cases same : other = kind
  · subst same
    rwa [get_set_self]
  · rw [get_set_of_ne _ _ same]
    exact all other

end ByKind

structure Catalogue where
  policy : Policy
  entries : ByKind (List Entry)
  ordered : ∀ kind, Ordered Entry.key (entries.get kind)
  /-- The declarations with annotations, in reading order. -/
  annotated : Array (Declaration × List Annotation) := #[]
  traits : List (Iri × CharacteristicSet) := []
  axioms : Array AnnotatedAxiom := #[]

namespace Catalogue

def empty (policy : Policy) : Catalogue where
  policy := policy
  entries := .fill []
  ordered kind := by rw [ByKind.get_fill]; exact .nil

def origin? (catalogue : Catalogue) (kind : EntityKind) (iri : Iri) : Option Origin :=
  Entry.origin? (catalogue.entries.get kind) iri

def declarations (catalogue : Catalogue) (kind : EntityKind) : List Declaration :=
  (catalogue.entries.get kind).map fun entry => ⟨kind, entry.iri⟩

def count (catalogue : Catalogue) (kind : EntityKind) : Nat := (catalogue.entries.get kind).length

def countOf (catalogue : Catalogue) (origin : Origin) (kind : EntityKind) : Nat :=
  (catalogue.entries.get kind).countP fun entry => entry.origin == origin

def characteristics (catalogue : Catalogue) (iri : Iri) : CharacteristicSet :=
  ((catalogue.traits.find? fun trait => trait.1 == iri).map (·.2)).getD .empty

/-- Lists an entity, in place of an entry with its name. -/
def list (catalogue : Catalogue) (kind : EntityKind) (entry : Entry) : Catalogue :=
  { catalogue with
    entries := catalogue.entries.set kind (placeBy Entry.key entry (catalogue.entries.get kind))
    ordered := ByKind.forall_get_set catalogue.ordered kind ((catalogue.ordered kind).placeBy entry) }

/-- Finds an entity. Under the implicit policy one that is not declared is declared by this. -/
def lookup (kind : EntityKind) (iri : Iri) (catalogue : Catalogue) :
    Option Declaration × Catalogue :=
  match catalogue.origin? kind iri, catalogue.policy with
  | some _, _ => (some ⟨kind, iri⟩, catalogue)
  | none, .explicit => (none, catalogue)
  | none, .implicit => (some ⟨kind, iri⟩, catalogue.list kind ⟨iri, .implicit⟩)

/-- Declares an entity, once. An entity that was declared by its use becomes an explicit one. -/
def declare (declaration : Declaration) (annotations : List Annotation) (catalogue : Catalogue) :
    Bool × Catalogue :=
  if catalogue.origin? declaration.kind declaration.iri = some .explicit then (false, catalogue)
  else
    let listed := catalogue.list declaration.kind ⟨declaration.iri, .explicit⟩
    (true, if annotations.isEmpty then listed
      else { listed with annotated := listed.annotated.push (declaration, annotations) })

def addTraits (iri : Iri) (set : CharacteristicSet) :
    List (Iri × CharacteristicSet) → List (Iri × CharacteristicSet)
  | [] => [(iri, set)]
  | (name, members) :: rest =>
    if name = iri then (name, members.union set) :: rest
    else (name, members) :: addTraits iri set rest

/-- Gives a characteristic to the property of an expression. What is said of the inverse of a
property is turned into what it means for the property itself. -/
def characterize (property : ObjectPropertyExpression) (characteristic : Characteristic)
    (catalogue : Catalogue) : Catalogue :=
  match property with
  | .named entity =>
    { catalogue with traits := addTraits entity.iri (.single characteristic) catalogue.traits }
  | .inverseOf entity =>
    { catalogue with
      traits := addTraits entity.iri (.single characteristic.inverse) catalogue.traits }
  | .top | .bottom => catalogue

def characterizeData (property : DataPropertyExpression) (characteristic : Characteristic)
    (catalogue : Catalogue) : Catalogue :=
  match property with
  | .named entity =>
    { catalogue with traits := addTraits entity.iri (.single characteristic) catalogue.traits }
  | .top | .bottom => catalogue

def note (statement : Axiom) (catalogue : Catalogue) : Catalogue :=
  match statement with
  | .objectCharacteristic characteristic property =>
    catalogue.characterize property (.stated characteristic)
  | .inverseObjectProperties first second =>
    (catalogue.characterize first .hasInverse).characterize second .hasInverse
  | .functionalDataProperty property => catalogue.characterizeData property (.stated .functional)
  | _ => catalogue

def add (annotated : AnnotatedAxiom) (catalogue : Catalogue) : Catalogue :=
  let noted := catalogue.note annotated.statement
  { noted with axioms := noted.axioms.push annotated }

def lookupEvents (kind : EntityKind) (iri : Iri) (catalogue : Catalogue) : List Event :=
  match catalogue.origin? kind iri, catalogue.policy with
  | none, .implicit =>
    [⟨.debug, .catalogue, "implicit declaration of " ++ kind.name ++ " " ++ iri.render⟩]
  | _, _ => []

def declareEvents (declaration : Declaration) (catalogue : Catalogue) : List Event :=
  match catalogue.origin? declaration.kind declaration.iri with
  | some .implicit =>
    [⟨.debug, .catalogue, declaration.kind.name ++ " " ++ declaration.iri.render ++
      " was used before its declaration"⟩]
  | _ => []

instance : Store Catalogue where
  lookup := lookup
  declare := declare
  add := add
  lookupEvents := lookupEvents
  declareEvents := declareEvents

def render (catalogue : Catalogue) : String :=
  toString (catalogue.count .annotationProperty) ++ " annotation properties, " ++
  toString (catalogue.count .owlClass) ++ " classes, " ++
  toString (catalogue.count .objectProperty) ++ " object properties, " ++
  toString (catalogue.count .dataProperty) ++ " data properties, " ++
  toString (catalogue.count .namedIndividual) ++ " named individuals, " ++
  toString (catalogue.count .datatype) ++ " datatypes"

end Catalogue

end OwlFunctional
