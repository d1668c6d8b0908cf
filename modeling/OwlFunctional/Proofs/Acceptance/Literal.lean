import OwlFunctional.Proofs.Acceptance.Name
import OwlFunctional.Proofs.Recognition.Literal

/-! Every spelling of a literal is read, unless a language or a datatype follows that is not part
of it. -/

set_option autoImplicit false

namespace OwlFunctional.Acceptance

open Spelling Grammar

variable {session : Session Catalogue} {input rest : List Lexeme}

/-- Nothing follows that a literal would take for a part of it. -/
structure Ended (rest : List Lexeme) : Prop where
  untagged : (firstLexeme rest).token ≠ .atSign
  untyped : (firstLexeme rest).token ≠ .doubleCaret

theorem readsUpTo_accept {token : Token} (mark : Mark token input rest) (here : session.At input) :
    ReadsUpTo (Reading.accept token) session true rest := by
  obtain ⟨literal, takes⟩ := mark
  obtain ⟨scanned, after, scan, same, ahead⟩ := readsUpTo_token takes here
  refine ⟨after, Reads.bind_iff.mpr ⟨scanned, after, scan, ?_⟩, ahead⟩
  have kind : scanned.token = token := by rw [Scanned.token, same]
  simp [kind]

theorem readsTo_accept_other {token : Token} (other : (firstLexeme input).token ≠ token)
    (here : session.At input) :
    ReadsTo (Reading.accept token) session false input := by
  have scan : Reads .lenient Reading.token session session.stream.token.1
      { session with stream := session.stream.token.2 } := Reads.token_iff.mpr ⟨rfl, rfl⟩
  have back : Reads .lenient Reading.unscan { session with stream := session.stream.token.2 } ()
      { session with stream := session.stream.token.2.unscan } := Reads.unscan_iff.mpr rfl
  have kind : session.stream.token.1.token ≠ token := by
    rw [Scanned.token, scan.token_first here]
    exact other
  refine ⟨_, Reads.bind_iff.mpr ⟨_, _, scan, ?_⟩, scan.unscan_at back here⟩
  rw [if_neg kind]
  exact Reads.bind_iff.mpr ⟨(), _, back, by simp⟩

theorem readsUpTo_languageRest {limit : Nat} (tag : String) {text : String}
    (spelled : TagRest text input rest) (ahead : session.stream.ahead = input)
    (noEof : session.stream.NoEof) (enough : input.length < limit) :
    ReadsUpTo (languageRest tag limit) session (tag ++ text) rest := by
  induction spelled generalizing session tag limit with
  | done ended =>
    obtain ⟨limit, rfl⟩ := Nat.exists_eq_succ_of_ne_zero (Nat.ne_zero_of_lt enough)
    subst ahead
    obtain ⟨⟨position, found⟩, behind⟩ := Recognition.subtag_absent noEof ended
    refine ⟨{ session with stream := session.stream.subtag.2 }, ?_, behind⟩
    refine Reads.bind_iff.mpr ⟨_, _, Reads.subtag_iff.mpr ⟨found, rfl⟩, ?_⟩
    exact Reads.bind_iff.mpr ⟨(), _, Reads.checkTag_iff.mpr ⟨rfl, rfl⟩, by simp⟩
  | @hyphen _ literal _ others _ goesOn _ ih =>
    obtain ⟨limit, rfl⟩ := Nat.exists_eq_succ_of_ne_zero (Nat.ne_zero_of_lt enough)
    obtain ⟨found, behind⟩ := Recognition.subtag_hyphen ahead goesOn
    have piece : Reads .lenient Reading.subtag session _ _ := Reads.subtag_iff.mpr ⟨found, rfl⟩
    have fewer : others.length < limit := by
      simp only [List.length_cons] at enough
      omega
    obtain ⟨after, read, reached⟩ := ih (tag ++ ("-" ++ literal)) behind (piece.noEof noEof) fewer
    refine ⟨after, Reads.bind_iff.mpr ⟨_, _, piece, ?_⟩, reached⟩
    simpa [String.append_assoc] using read
  | @negative literal _ others _ sign _ ih =>
    obtain ⟨limit, rfl⟩ := Nat.exists_eq_succ_of_ne_zero (Nat.ne_zero_of_lt enough)
    obtain ⟨found, behind⟩ := Recognition.subtag_negative ahead sign
    have piece : Reads .lenient Reading.subtag session _ _ := Reads.subtag_iff.mpr ⟨found, rfl⟩
    have fewer : others.length < limit := by
      simp only [List.length_cons] at enough
      omega
    obtain ⟨after, read, reached⟩ := ih (tag ++ literal) behind (piece.noEof noEof) fewer
    refine ⟨after, Reads.bind_iff.mpr ⟨_, _, piece, ?_⟩, reached⟩
    simpa [String.append_assoc] using read

theorem takes_length_lt {lexeme : Lexeme} (takes : Takes lexeme input rest) :
    rest.length < size input := by
  rw [size, takes]
  exact Nat.lt_succ_self _

theorem readsTo_language {scope : Scope} {tag : Option String} (spelled : Language tag input rest)
    (here : session.At input) (enough : size input < scope.limit)
    (ended : tag = none → (firstLexeme rest).token ≠ .atSign) :
    ReadsTo (language scope) session tag rest := by
  cases spelled with
  | absent =>
    obtain ⟨after, passed, there⟩ := readsTo_accept_other (ended rfl) here
    exact ⟨after, Reads.bind_iff.mpr ⟨false, after, passed, by simp⟩, there⟩
  | @tag token literal text _ first second _ mark isWord takes others =>
    obtain ⟨begun, accepted, ahead⟩ := readsUpTo_accept mark here
    have begunAt := accepted.atAhead here ahead
    obtain ⟨scanned, named, scan, same, ahead⟩ := readsUpTo_token takes begunAt
    have namedAt := scan.atAhead begunAt ahead
    have fewer : second.length < scope.limit := by
      have before := mark.isLocal.size_lt
      have taken := takes_length_lt takes
      omega
    obtain ⟨after, pieces, ahead⟩ := readsUpTo_languageRest literal others ahead namedAt.noEof fewer
    refine ⟨after, Reads.bind_iff.mpr ⟨true, begun, accepted, ?_⟩, pieces.atAhead namedAt ahead⟩
    have kind : scanned.token = token := by rw [Scanned.token, same]
    have written : scanned.literal = literal := by rw [Scanned.literal, same]
    refine Reads.bind_iff.mpr ⟨scanned, named, scan, ?_⟩
    rw [if_pos (by rw [kind, isWord]), written]
    exact Reads.map_iff.mpr ⟨_, pieces, rfl⟩

theorem readsTo_datatypeSuffix {scope : Scope} {suffix : Option Iri}
    (spelled : Suffix scope.prefixes suffix input rest) (here : session.At input)
    (ended : suffix = none → (firstLexeme rest).token ≠ .doubleCaret) :
    ReadsTo (datatypeSuffix scope) session suffix rest := by
  cases spelled with
  | absent =>
    obtain ⟨after, passed, there⟩ := readsTo_accept_other (ended rfl) here
    exact ⟨after, Reads.bind_iff.mpr ⟨false, after, passed, by simp⟩, there⟩
  | datatype mark name =>
    obtain ⟨begun, accepted, ahead⟩ := readsUpTo_accept mark here
    have begunAt := accepted.atAhead here ahead
    obtain ⟨position, after, named, ahead⟩ := readsUpTo_name name begunAt
    refine ⟨after, Reads.bind_iff.mpr ⟨true, begun, accepted, ?_⟩, named.atAhead begunAt ahead⟩
    exact Reads.bind_iff.mpr ⟨_, after, named, by simp⟩

theorem readsTo_typed {scope : Scope} {position : Position} {kind : LiteralKind} {value : String}
    {language : Option String}
    {suffix : Option Iri} (spelled : Suffix scope.prefixes suffix input rest)
    (here : session.At input) (untyped : (firstLexeme rest).token ≠ .doubleCaret)
    (suits : ∀ datatype ∈ suffix, Suits kind value language datatype) :
    ReadsTo (typed scope position kind value language) session
      ⟨value, suffix.getD (defaultDatatype kind language), language⟩ rest := by
  obtain ⟨after, typed, there⟩ := readsTo_datatypeSuffix spelled here fun _ => untyped
  exact ⟨after, Recognition.typed_iff.mpr ⟨suffix, typed, suits, rfl⟩, there⟩

theorem suffix_untagged {prefixes : Prefixes} {suffix : Option Iri}
    (spelled : Suffix prefixes suffix input rest)
    (untagged : (firstLexeme rest).token ≠ .atSign) : (firstLexeme input).token ≠ .atSign := by
  cases spelled with
  | absent => exact untagged
  | datatype mark name =>
    obtain ⟨literal, takes⟩ := mark
    simp [takes.first]

/-- A literal with a language is read also before an at sign. -/
theorem readsTo_literal_before {scope : Scope} {literal : Literal}
    (spelled : Spelling.Literal scope.prefixes literal input rest) (here : session.At input)
    (enough : size input < scope.limit)
    (untagged : literal.language = none → (firstLexeme rest).token ≠ .atSign)
    (untyped : (firstLexeme rest).token ≠ .doubleCaret) :
    ReadsTo (Grammar.literal scope) session literal rest := by
  cases spelled with
  | boolean takes =>
    obtain ⟨scanned, after, scan, same, ahead⟩ := readsUpTo_token takes here
    refine ⟨after, Reads.bind_iff.mpr ⟨scanned, after, scan, ?_⟩, scan.atAhead here ahead⟩
    simp [Scanned.token, Scanned.literal, same]
  | integer takes suffix suits =>
    obtain ⟨scanned, begun, scan, same, ahead⟩ := readsUpTo_token takes here
    obtain ⟨after, typed, afterAt⟩ := readsTo_typed suffix (scan.atAhead here ahead) untyped suits
    refine ⟨after, Reads.bind_iff.mpr ⟨scanned, begun, scan, ?_⟩, afterAt⟩
    simp only [Scanned.token, Scanned.literal, same]
    exact typed
  | decimal takes suffix suits =>
    obtain ⟨scanned, begun, scan, same, ahead⟩ := readsUpTo_token takes here
    obtain ⟨after, typed, afterAt⟩ := readsTo_typed suffix (scan.atAhead here ahead) untyped suits
    refine ⟨after, Reads.bind_iff.mpr ⟨scanned, begun, scan, ?_⟩, afterAt⟩
    simp only [Scanned.token, Scanned.literal, same]
    exact typed
  | string takes value language suffix suits =>
    obtain ⟨scanned, begun, scan, same, ahead⟩ := readsUpTo_token takes here
    have fewer := Nat.lt_trans (Takes.isLocal takes).size_lt enough
    obtain ⟨spoken, tagged, spokenAt⟩ := readsTo_language language (scan.atAhead here ahead) fewer
      fun none => suffix_untagged suffix (untagged none)
    obtain ⟨after, typed, afterAt⟩ := readsTo_typed suffix spokenAt untyped suits
    refine ⟨after, Reads.bind_iff.mpr ⟨scanned, begun, scan, ?_⟩, afterAt⟩
    simp only [Scanned.token, Scanned.literal, same]
    subst value
    rw [← Recognition.defaultDatatype_text]
    exact Reads.bind_iff.mpr ⟨_, spoken, Reads.within_iff.mpr tagged, typed⟩

theorem readsTo_literal {scope : Scope} {literal : Literal}
    (spelled : Spelling.Literal scope.prefixes literal input rest) (here : session.At input)
    (enough : size input < scope.limit) (ended : Ended rest) :
    ReadsTo (Grammar.literal scope) session literal rest :=
  readsTo_literal_before spelled here enough (fun _ => ended.untagged) ended.untyped

end OwlFunctional.Acceptance
