/-! What is reported while a document is read. Reports never change what is read. -/

set_option autoImplicit false

namespace OwlFunctional

inductive Level where
  | error
  | warn
  | info
  | debug
  | trace
  deriving DecidableEq, Repr

namespace Level

def name : Level → String
  | error => "ERROR"
  | warn => "WARN"
  | info => "INFO"
  | debug => "DEBUG"
  | trace => "TRACE"

/-- How much is reported at a level: each level includes the ones before it. -/
def detail : Level → Nat
  | error => 1
  | warn => 2
  | info => 3
  | debug => 4
  | trace => 5

end Level

inductive Topic where
  | command
  | reader
  | document
  | names
  | catalogue
  | tokens
  deriving DecidableEq, Repr

def Topic.name : Topic → String
  | command => "oxowlfn"
  | reader => "oxowlfn::parser"
  | document => "oxowlfn::grammar::document"
  | names => "oxowlfn::grammar::resolve"
  | catalogue => "oxowlfn::store::memory"
  | tokens => "oxowlfn::tokens"

structure Event where
  level : Level
  topic : Topic
  message : String
  deriving DecidableEq, Repr

def Event.render (event : Event) : String :=
  event.level.name ++ " " ++ event.topic.name ++ ": " ++ event.message

end OwlFunctional
