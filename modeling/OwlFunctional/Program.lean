import OwlFunctional.Event
import OwlFunctional.SyntaxError

/-! Programs that read: trees of requests, with a continuation for each reply.

A request may be refused. The program then fails with an error that it made for this case, so no
program can go on after a refusal. What a request does is for a handler to say, and a program can
be run with any handler.
-/

set_option autoImplicit false

namespace OwlFunctional

/-- Requests with the type of their replies and the reasons to refuse them. -/
class Signature (R : Type) where
  Reply : R → Type
  Refusal : R → Type

inductive Program (R : Type) [Signature R] (α : Type) where
  | done (value : α)
  | fail (error : SyntaxError)
  | ask (request : R) (refused : Signature.Refusal request → SyntaxError)
    (next : Signature.Reply request → Program R α)

structure Handler (R : Type) [Signature R] (S : Type) where
  answer : (request : R) → S → Except (Signature.Refusal request) (Signature.Reply request) × S
  events : R → S → List Event

namespace Program

variable {R S α β : Type} [Signature R]

def bind : Program R α → (α → Program R β) → Program R β
  | done value, next => next value
  | fail error, _ => fail error
  | ask request refused reply, next =>
    ask request refused fun answer => (reply answer).bind next

instance : Monad (Program R) where
  pure := done
  bind := bind

def within (context : Context) : Program R α → Program R α
  | done value => done value
  | fail error => fail (error.within context)
  | ask request refused next =>
    ask request (fun reason => (refused reason).within context) fun answer =>
      (next answer).within context

def run (handler : Handler R S) : Program R α → S → Except SyntaxError α × S
  | done value, state => (.ok value, state)
  | fail error, state => (.error error, state)
  | ask request refused next, state =>
    match handler.answer request state with
    | (.ok reply, state) => (next reply).run handler state
    | (.error reason, state) => (.error (refused reason), state)

/-- What is reported during a run, after the given events. -/
def log (handler : Handler R S) (events : Array Event) : Program R α → S → Array Event
  | done _, _ => events
  | fail _, _ => events
  | ask request _ next, state =>
    let events := events.appendList (handler.events request state)
    match handler.answer request state with
    | (.ok reply, state) => (next reply).log handler events state
    | (.error _, _) => events

@[simp] theorem run_pure (handler : Handler R S) (value : α) (state : S) :
    (pure value : Program R α).run handler state = (.ok value, state) := rfl

@[simp] theorem run_fail (handler : Handler R S) (error : SyntaxError) (state : S) :
    (fail error : Program R α).run handler state = (.error error, state) := rfl

theorem run_bind (handler : Handler R S) (program : Program R α) (next : α → Program R β)
    (state : S) :
    (program >>= next).run handler state =
      match program.run handler state with
      | (.ok value, state) => (next value).run handler state
      | (.error error, state) => (.error error, state) := by
  change (program.bind next).run handler state = _
  induction program generalizing state with
  | done value => rfl
  | fail error => rfl
  | ask request refused reply ih =>
    simp only [bind, run]
    split
    · exact ih _ _
    · rfl

theorem run_within (handler : Handler R S) (context : Context) (program : Program R α)
    (state : S) :
    (program.within context).run handler state =
      match program.run handler state with
      | (.ok value, state) => (.ok value, state)
      | (.error error, state) => (.error (error.within context), state) := by
  induction program generalizing state with
  | done value => rfl
  | fail error => rfl
  | ask request refused next ih =>
    simp only [within, run]
    split
    · exact ih _ _
    · rfl

end Program

end OwlFunctional
