import OwlFunctional.Grammar.Document
import OwlFunctional.Proofs.Cursor

/-! Every construct takes lexemes off the input, whatever the store answers.

A lexeme can be put back, but only the last one. So what counts is the number of lexemes ahead
after that: no query lets it grow, and each token that is read lets it shrink.
-/

set_option autoImplicit false

namespace OwlFunctional

namespace Stream

/-- The number of lexemes ahead, if the last one is put back. -/
def reach (stream : Stream) : Nat := stream.unscan.ahead.length

theorem length_le_reach (stream : Stream) : stream.ahead.length ≤ stream.reach := by
  unfold reach unscan
  split
  · dsimp only
    split <;> simp
  · exact Nat.le_refl _

theorem scan_reach_le (stream : Stream) : stream.scan.2.reach ≤ stream.ahead.length := by
  unfold reach unscan
  rw [scan_lastStep]
  cases ahead : stream.ahead with
  | nil => simp [next, ahead, Lexeme.eof]
  | cons lexeme rest =>
    simp only [next, ahead, List.head?_cons, Option.getD_some, scan_ahead, List.tail_cons]
    split <;> simp

@[simp] theorem unscan_reach (stream : Stream) : stream.unscan.reach = stream.reach := by
  unfold reach
  rw [unscan_unscan]

theorem skip_length_le (count : Nat) (stream : Stream) :
    (stream.skip count).ahead.length ≤ stream.ahead.length := by
  rw [skip_ahead, List.length_drop]
  omega

theorem token_reach_le (stream : Stream) : stream.token.2.reach ≤ stream.ahead.length :=
  Nat.le_trans (scan_reach_le _) (skip_length_le _ _)

/-- The search for a piece of a language tag begins with a step. -/
theorem subtag_reach_le_scan (stream : Stream) : stream.subtag.2.reach ≤ stream.scan.2.reach := by
  have second : stream.scan.2.scan.2.reach ≤ stream.scan.2.reach :=
    Nat.le_trans (scan_reach_le _) (length_le_reach _)
  simp only [subtag]
  split
  · split
    · exact second
    · exact second
  · split
    · exact Nat.le_refl _
    · exact Nat.le_of_eq (unscan_reach _)

theorem subtag_reach_le (stream : Stream) : stream.subtag.2.reach ≤ stream.ahead.length :=
  Nat.le_trans stream.subtag_reach_le_scan stream.scan_reach_le

end Stream

/-- No answer lets the cursor go back by more than one lexeme. -/
theorem Session.answer_reach_le {σ : Type} [Store σ] (checks : Checks) (query : Query)
    (state : Session σ) : (answer checks query state).2.stream.reach ≤ state.stream.reach := by
  have length := state.stream.length_le_reach
  cases query with
  | token => exact Nat.le_trans state.stream.token_reach_le length
  | peek =>
    change state.stream.token.2.unscan.reach ≤ _
    rw [Stream.unscan_reach]
    exact Nat.le_trans state.stream.token_reach_le length
  | unscan => exact Nat.le_of_eq state.stream.unscan_reach
  | subtag => exact Nat.le_trans state.stream.subtag_reach_le length
  | find kind iri =>
    simp only [Session.answer]
    split <;> exact Nat.le_refl _
  | here => exact Nat.le_refl _
  | checkIri text => exact Nat.le_refl _
  | checkTag tag => exact Nat.le_refl _
  | report event => exact Nat.le_refl _

namespace Reads

variable {σ α : Type} [Store σ] {checks : Checks} {session after : Session σ}

theorem reach_le {reading : Reading α} {value : α}
    (read : Reads checks reading session value after) :
    after.stream.reach ≤ session.stream.reach :=
  read.relates (fun first second => second.stream.reach ≤ first.stream.reach)
    (fun _ => Nat.le_refl _) (fun first second => Nat.le_trans second first)
    (Session.answer_reach_le checks)

theorem token_shorter {scanned : Scanned} (read : Reads checks Reading.token session scanned after)
    (visible : scanned.token ≠ .eof) :
    after.stream.ahead.length + 1 = after.stream.reach ∧
      after.stream.reach ≤ session.stream.ahead.length := by
  obtain ⟨rfl, rfl⟩ := token_iff.mp read
  refine ⟨?_, session.stream.token_reach_le⟩
  obtain ⟨before, last⟩ := session.stream.token_lastStep
  rw [Scanned.token, Stream.token_lexeme] at visible
  simp [Stream.reach, Stream.unscan, last, visible]

theorem expect_shorter {token : Token} (read : Reads checks (Reading.expect token) session () after)
    (visible : token ≠ .eof) :
    after.stream.ahead.length + 1 = after.stream.reach ∧
      after.stream.reach ≤ session.stream.ahead.length := by
  obtain ⟨scanned, scan, rfl⟩ := expect_iff.mp read
  exact scan.token_shorter visible

theorem enclosed_shorter {keyword : Keyword} {inside : Reading α} {value : α}
    (read : Reads checks (Grammar.enclosed keyword inside) session value after) :
    after.stream.ahead.length < session.stream.ahead.length := by
  obtain ⟨named, opened, inner, word, paren, core, close⟩ := enclosed_iff.mp read
  have first := word.expect_shorter (by simp)
  have second := paren.expect_shorter (by simp)
  have third := core.reach_le
  have fourth := inner.stream.length_le_reach
  have fifth := close.expect_shorter (by simp)
  omega

theorem unscan_length_le {scanned : Scanned} {between : Session σ}
    (read : Reads checks Reading.token session scanned between)
    (back : Reads checks Reading.unscan between () after) :
    after.stream.ahead.length ≤ session.stream.ahead.length := by
  obtain ⟨rfl, rfl⟩ := token_iff.mp read
  obtain rfl := unscan_iff.mp back
  exact session.stream.token_reach_le

end Reads

end OwlFunctional
