import OwlFunctional.Document

/-! The requests of a run, each with the state it was made in.

A reading makes no request that writes, so among the requests of a document those that write are
made by its statements.
-/

set_option autoImplicit false

namespace OwlFunctional

namespace Program

variable {R S α β : Type} [Signature R]

/-- The requests that a program makes, up to one that is refused. -/
def requests (handler : Handler R S) : Program R α → S → List (R × S)
  | done _, _ => []
  | fail _, _ => []
  | ask request _ next, state =>
    (request, state) ::
      match handler.answer request state with
      | (.ok reply, after) => (next reply).requests handler after
      | (.error _, _) => []

theorem requests_bind (handler : Handler R S) (program : Program R α) (next : α → Program R β)
    (state : S) :
    (program >>= next).requests handler state = program.requests handler state ++
      match program.run handler state with
      | (.ok value, after) => (next value).requests handler after
      | (.error _, _) => [] := by
  change (program.bind next).requests handler state = _
  induction program generalizing state with
  | done value => rfl
  | fail error => rfl
  | ask request refused reply ih =>
    simp only [bind, requests, run]
    rcases handler.answer request state with ⟨reason | answer, after⟩
    · rfl
    · simp only [ih, List.cons_append]

end Program

variable {σ α : Type}

def Command.isWrite : Command → Bool
  | .query _ => false
  | .declare .. | .add _ => true

def writesOf (requests : List (Command × Session σ)) : List (Command × Session σ) :=
  requests.filter fun request => request.1.isWrite

@[simp] theorem writesOf_append (first second : List (Command × Session σ)) :
    writesOf (first ++ second) = writesOf first ++ writesOf second := List.filter_append ..

variable [Store σ]

theorem Writing.requests_ofReading (checks : Checks) (reading : Reading α) (session : Session σ) :
    (Writing.ofReading reading).requests (Session.writer checks) session =
      (reading.requests (Session.reader checks) session).map fun request =>
        (.query request.1, request.2) := by
  induction reading generalizing session with
  | done value => rfl
  | fail error => rfl
  | ask query refused next ih =>
    simp only [Writing.ofReading, Program.requests, Session.writer, Session.reader, List.map_cons]
    split
    · exact congrArg _ (ih _ _)
    · rfl

@[simp] theorem Writing.writesOf_ofReading (checks : Checks) (reading : Reading α)
    (session : Session σ) :
    writesOf ((Writing.ofReading reading).requests (Session.writer checks) session) = [] := by
  rw [Writing.requests_ofReading, writesOf, List.filter_map]
  simp [Function.comp_def, Command.isWrite]

def Document.requests (settings : Settings) (session : Session σ) : List (Command × Session σ) :=
  let session := prepare settings session
  ((preamble settings session).requests (Session.reader settings.checks) session).map
      (fun request => (.query request.1, request.2)) ++
    match (preamble settings session).run (Session.reader settings.checks) session with
    | (.error _, _) => []
    | (.ok ontology, middle) =>
      (statements ontology middle).requests (Session.writer settings.checks) middle

end OwlFunctional
