import OwlFunctional.Proofs.Replay

/-! How a document falls into what stands before its statements, the statements one by one, and what
stands after them.

An accepted document falls apart in this way, and only at the places where the reader itself goes
from one statement to the next. Each statement is then read again from its own lexemes, wherever
they stand, if the entities that were declared before it are declared.
-/

set_option autoImplicit false

namespace OwlFunctional

/-! ## Partitions -/

/-- The lexemes of a document in parts, with the statement that each part of the body spells. -/
structure Partition where
  opening : List Lexeme
  body : List (Statement × List Lexeme)
  closing : List Lexeme

namespace Partition

def statements (parts : Partition) : List Statement := parts.body.map (·.1)

def inside (parts : Partition) : List Lexeme := parts.body.flatMap (·.2) ++ parts.closing

def lexemes (parts : Partition) : List Lexeme := parts.opening ++ parts.inside

def rearranged (parts : Partition) (body : List (Statement × List Lexeme)) : Partition :=
  { parts with body := body }

end Partition

namespace Spelling

/-- The lexemes spell the statement from the first one to the last. A name of the language itself
could be taken for an entity, which would be another statement with the same lexemes. -/
structure States (prefixes : Prefixes) (piece : Statement × List Lexeme) : Prop where
  spelled : Sentence prefixes piece.1 piece.2 []
  usable : ∀ reference ∈ piece.1.references, reference.Usable

theorem States.anywhere {prefixes : Prefixes} {piece : Statement × List Lexeme}
    (states : States prefixes piece) (rest : List Lexeme) :
    Sentence prefixes piece.1 (piece.2 ++ rest) rest := by
  obtain ⟨taken, same, -, spelled⟩ := states.spelled.isLocal
  rw [List.append_nil] at same
  rw [same]
  exact spelled rest

theorem States.telling {prefixes : Prefixes} {piece : Statement × List Lexeme}
    (states : States prefixes piece) : significant piece.2 ≠ [] := by
  obtain ⟨taken, same, telling, -⟩ := states.spelled.isLocal
  rwa [same, List.append_nil]

end Spelling

/-- The parts of a document: the opening spells the ontology, each piece of the body a statement,
and the closing a parenthesis with nothing after it but trivia. -/
structure Partition.Spells (parts : Partition) (prefixes : Prefixes) (ontology : Ontology) :
    Prop where
  opens : ∃ bindings, (bindings.map (·.label)).Nodup ∧
    ontology.prefixes = prefixes.override bindings ∧
    Spelling.Opening bindings ontology parts.opening []
  states : ∀ piece ∈ parts.body, Spelling.States ontology.prefixes piece
  closes : ∃ after, Spelling.Closes parts.closing after ∧ significant after = []

/-! ## Where the opening ends -/

namespace Spelling

variable {input first second : List Lexeme}

theorem Mark.unique {token : Token} (one : Mark token input first) (two : Mark token input second) :
    first = second := by
  obtain ⟨_, one⟩ := one
  obtain ⟨_, two⟩ := two
  exact (Takes.unique one two).2

theorem Opens.unique {keyword : Keyword} (one : Opens keyword input first)
    (two : Opens keyword input second) : first = second := by
  obtain ⟨middle, word, one⟩ := one
  obtain ⟨_, same, two⟩ := two
  obtain rfl := Mark.unique word same
  exact Mark.unique one two

theorem Label.unique {label other : String} {past beyond : List Lexeme}
    (one : Label label input first) (two : Label other input second)
    (colon : Mark .colon first past) (also : Mark .colon second beyond) : first = second := by
  obtain ⟨_, colon⟩ := colon
  obtain ⟨_, also⟩ := also
  cases one with
  | empty =>
    cases two with
    | empty => rfl
    | word takes => simpa using (Takes.unique colon takes).1
  | word takes =>
    cases two with
    | empty => simpa using (Takes.unique takes also).1
    | word again => exact (Takes.unique takes again).2

theorem Bound.unique {binding other : Binding} (one : Bound binding input first)
    (two : Bound other input second) : first = second := by
  obtain ⟨_, _, _, _, _, opens, label, colon, equals, space, closes⟩ := one
  obtain ⟨_, _, _, _, _, opens', label', colon', equals', space', closes'⟩ := two
  obtain rfl := Opens.unique opens opens'
  obtain rfl := Label.unique label label' colon colon'
  obtain rfl := Mark.unique colon colon'
  obtain rfl := Mark.unique equals equals'
  obtain rfl := (Takes.unique space space').2
  exact Mark.unique closes closes'

theorem Header.unique {iri : Iri} {version : Option Iri} (one : Header iri version input first)
    (two : Header iri version input second) : first = second := by
  obtain ⟨_, _, opens, takes, versioned⟩ := one
  obtain ⟨_, _, opens', takes', versioned'⟩ := two
  obtain rfl := Opens.unique opens opens'
  obtain rfl := (Takes.unique takes takes').2
  cases version with
  | none => exact versioned.symm.trans versioned'
  | some version => exact (Takes.unique versioned versioned').2

theorem Header.not_bound {iri : Iri} {version : Option Iri} {binding : Binding}
    (header : Header iri version input first) : ¬ Bound binding input second := by
  rintro ⟨_, _, _, _, _, bound, -⟩
  obtain ⟨_, _, opens, -⟩ := header
  have word := (Acceptance.opens_first opens).symm.trans (Acceptance.opens_first bound)
  simp at word

theorem Opening.unique {bindings others : List Binding} {ontology : Ontology}
    (one : Opening bindings ontology input first) (two : Opening others ontology input second) :
    first = second := by
  obtain ⟨middle, bound, header⟩ := one
  obtain ⟨_, again, also⟩ := two
  -- Both take one abbreviation after the other, and the header tells where they end.
  induction bound generalizing others with
  | nil =>
    cases again with
    | nil => exact header.unique also
    | cons binding _ => exact absurd binding header.not_bound
  | cons binding _ ih =>
    cases again with
    | nil => exact absurd binding also.not_bound
    | cons other more =>
      obtain rfl := binding.unique other
      exact ih header more

theorem Opening.before {bindings : List Binding} {ontology : Ontology}
    (opening : Opening bindings ontology input []) (rest : List Lexeme) :
    Opening bindings ontology (input ++ rest) rest := by
  obtain ⟨taken, same, -, anywhere⟩ := opening.isLocal
  rw [List.append_nil] at same
  rw [same]
  exact anywhere rest

end Spelling

/-! ## Accepted documents fall apart -/

theorem Spelling.Sentence.not_closes {prefixes : Prefixes} {statement : Statement}
    {input rest left : List Lexeme} (spelled : Sentence prefixes statement input rest) :
    ¬ Closes input left := by
  intro closes
  have paren := Acceptance.closes_first closes
  cases spelled with
  | declaration opens => simp [Acceptance.opens_first opens] at paren
  | assertion opens => simp [Acceptance.opens_first opens] at paren

theorem Spelling.Sequence.exists_pieces {prefixes : Prefixes} {statements : List Statement}
    {input rest : List Lexeme} (sequence : Sequence (Sentence prefixes) statements input rest) :
    ∃ body : List (Statement × List Lexeme), body.map (·.1) = statements ∧
      input = body.flatMap (·.2) ++ rest ∧ ∀ piece ∈ body, Sentence prefixes piece.1 piece.2 [] := by
  induction sequence with
  | nil => exact ⟨[], rfl, rfl, fun piece member => absurd member List.not_mem_nil⟩
  | @cons statement others _ _ _ first _ ih =>
    obtain ⟨body, rfl, rfl, spelled⟩ := ih
    obtain ⟨taken, rfl, -, anywhere⟩ := first.isLocal
    refine ⟨(statement, taken) :: body, rfl, by simp, ?_⟩
    intro piece member
    rcases List.mem_cons.mp member with rfl | member
    · simpa using anywhere []
    · exact spelled piece member

theorem Spelling.sequence_pieces {prefixes : Prefixes} {body : List (Statement × List Lexeme)}
    (states : ∀ piece ∈ body, States prefixes piece) (rest : List Lexeme) :
    Sequence (Sentence prefixes) (body.map (·.1)) (body.flatMap (·.2) ++ rest) rest := by
  induction body with
  | nil => exact .nil
  | cons piece body ih =>
    rw [List.flatMap_cons, List.append_assoc]
    exact .cons ((states piece List.mem_cons_self).anywhere _)
      (ih fun other member => states other (List.mem_cons_of_mem _ member))

namespace Document

theorem Completes.exists_partition {settings : Settings} {start after : Session Catalogue}
    {ontology : Ontology} {statements : List Statement}
    (completes : Completes settings start ontology statements after)
    (noEof : start.stream.NoEof) :
    ∃ parts : Partition, parts.Spells settings.prefixes ontology ∧
      parts.lexemes = start.stream.ahead := by
  obtain ⟨⟨bindings, distinct, extended, first, second, third, last, bound, header, stated, closes,
    ended⟩, held⟩ := completes.spelled noEof
  have opens : Spelling.Opening bindings ontology _ second := ⟨first, bound, header⟩
  obtain ⟨opening, whole, -, anywhere⟩ := opens.isLocal
  obtain ⟨body, rfl, rfl, spelled⟩ := stated.exists_pieces
  refine ⟨⟨opening, body, third⟩, ⟨⟨bindings, distinct, extended, ?_⟩, ?_, last, closes, ended⟩,
    whole.symm⟩
  · simpa using anywhere []
  · intro piece member
    refine ⟨spelled piece member, fun reference refers => ?_⟩
    exact (held piece.1 (List.mem_map_of_mem member) reference refers).1

end Document

/-! ## Each statement is read again -/

namespace Acceptance.SameContent

variable {first second third : Statement}

theorem of_alike (alike : first.Alike anywhere second) : SameContent first second := by
  cases alike with
  | declaration _ => exact .declaration
  | assertion annotated => exact .assertion

theorem trans (one : SameContent first second) (two : SameContent second third) :
    SameContent first third := by
  cases one with
  | declaration =>
    cases two with
    | declaration => exact .declaration
  | assertion => exact two

theorem declared?_eq (same : SameContent first second) : first.declared? = second.declared? := by
  cases same <;> rfl

theorem asserted?_eq (same : SameContent first second) : first.asserted? = second.asserted? := by
  cases same <;> rfl

theorem noted?_eq (same : SameContent first second) : first.noted? = second.noted? := by
  cases same <;> rfl

theorem references_eq (same : SameContent first second) : first.references = second.references := by
  cases same <;> rfl

theorem declaredBy_eq (same : SameContent first second) {before after : List Statement} :
    declaredBy (before ++ [second] ++ after) = declaredBy (before ++ first :: after) := by
  simp [declaredBy, List.filterMap_cons, same.declared?_eq]

end Acceptance.SameContent

open Acceptance (SameContent)
open Spelling (States Closes)

/-- Wherever its lexemes stand, the statement of a piece is read from them. Under the explicit
policy the given entities have to be listed. -/
structure Restates (checks : Checks) (prefixes : Prefixes) (policy : Policy)
    (declared : List Declaration) (piece : Statement × List Lexeme) : Prop where
  again : ∀ {scope : Scope} {session : Session Catalogue} {other : List Lexeme},
    scope.prefixes = prefixes → session.stream.ahead.length < scope.limit →
    session.At (piece.2 ++ other) →
    (∀ declaration, policy = .implicit ∨ declaration ∈ declared →
      session.store.Knows declaration) →
    ∃ found final, Reads checks (Grammar.statement? scope) session (some found) final ∧
      SameContent piece.1 found ∧ final.stream.ahead = other

theorem Restates.imp {checks : Checks} {prefixes : Prefixes} {policy : Policy}
    {declared others : List Declaration} {piece : Statement × List Lexeme}
    (restates : Restates checks prefixes policy declared piece)
    (less : policy = .explicit → ∀ declaration ∈ declared, declaration ∈ others) :
    Restates checks prefixes policy others piece where
  again bound enough there knows := by
    refine restates.again bound enough there fun declaration known => knows declaration ?_
    cases policy with
    | implicit => exact .inl rfl
    | explicit => exact .inr (less rfl declaration (known.resolve_left (by simp)))

/-- In lenient mode a piece is read from its lexemes if all that it refers to is declared. -/
theorem Spelling.States.restates {prefixes : Prefixes} {policy : Policy}
    {declared : List Declaration} {piece : Statement × List Lexeme} (states : States prefixes piece)
    (timely : policy = .explicit → ∀ reference ∈ piece.1.references, reference ∈ declared) :
    Restates .lenient prefixes policy declared piece where
  again {scope session other} same enough there knows := by
    subst same
    have resolve : ∀ reference ∈ piece.1.references, session.store.Resolves reference := by
      refine fun reference member => ⟨states.usable reference member, knows reference ?_⟩
      cases policy with
      | implicit => exact .inl rfl
      | explicit => exact .inr (timely rfl reference member)
    obtain ⟨found, content, final, reading, ahead⟩ := Acceptance.readsUpTo_statement?
      (states.anywhere other) there (there.size_lt enough) resolve
    exact ⟨found, final, reading, content, ahead⟩

section

variable {checks : Checks} {scope : Scope} {session read written last closed : Session Catalogue}
  {statement : Statement} {statements : List Statement} {piece : Statement × List Lexeme}
  {rest closing : List Lexeme}

theorem Reads.statement_piece
    (first : Reads checks (Grammar.statement? scope) session (some statement) read)
    (states : States scope.prefixes piece) (here : session.At (piece.2 ++ rest))
    (enough : session.stream.ahead.length < scope.limit) :
    SameContent piece.1 statement ∧ read.stream.ahead = rest := by
  -- The piece is read where nothing has to be declared and nothing is checked. The statement was
  -- read from the same place.
  have free : (⟨session.stream, .empty .implicit⟩ : Session Catalogue).At (piece.2 ++ rest) :=
    ⟨here.alike, here.noEof⟩
  obtain ⟨found, same, final, again, ended⟩ := Acceptance.readsUpTo_statement?
    (states.anywhere rest) free (here.size_lt enough)
    fun reference member => ⟨states.usable reference member, .inl rfl⟩
  obtain ⟨given, there⟩ := first.agree again rfl
  obtain rfl := Option.some.inj given
  rw [← there]
  exact ⟨same, ended⟩

theorem Reads.restates
    (first : Reads checks (Grammar.statement? scope) session (some statement) read)
    (states : States scope.prefixes piece) (here : session.At (piece.2 ++ rest))
    (enough : session.stream.ahead.length < scope.limit)
    (tallies : session.store.Tallies statements) :
    Restates checks scope.prefixes session.store.policy (declaredBy statements) piece := by
  obtain ⟨same, ended⟩ := first.statement_piece states here enough
  rw [← ended] at here
  refine ⟨fun bound roomy there knows => ?_⟩
  obtain ⟨found, final, again, alike, reached⟩ :=
    first.statement_again here states.telling there bound roomy fun declaration known => by
      refine knows declaration ?_
      cases policy : session.store.policy with
      | implicit => exact .inl rfl
      | explicit =>
        have listed := known.resolve_left (by simp [policy])
        exact .inr (tallies.declared_of_lists policy listed)
  exact ⟨found, final, again, same.trans (.of_alike alike), reached⟩

theorem Reads.declares_fresh
    (first : Reads checks (Grammar.statement? scope) session (some statement) read)
    (wrote : (Grammar.write statement).run (Session.writer checks) read = (.ok (), written))
    (tallies : session.store.Tallies statements) :
    ∀ declaration ∈ statement.declared?, declaration ∉ declaredBy statements := by
  intro declaration declares earlier
  rw [← tallies.explicit, ← first.explicit_iff] at earlier
  obtain ⟨taken, -⟩ := wrote_iff.mp wrote
  cases statement with
  | declaration declared annotations position =>
    obtain rfl : declared = declaration := Option.some.inj declares
    simp [Catalogue.write, Catalogue.declare, earlier] at taken
  | assertion annotated => simp [Statement.declared?] at declares

theorem nodup_declaredBy_concat (distinct : (declaredBy statements).Nodup)
    (fresh : ∀ declaration ∈ statement.declared?, declaration ∉ declaredBy statements) :
    (declaredBy (statements ++ [statement])).Nodup := by
  have parts : declaredBy (statements ++ [statement]) =
      declaredBy statements ++ statement.declared?.toList := by
    cases declared : statement.declared? <;> simp [declaredBy, declared]
  rw [parts, List.nodup_append]
  refine ⟨distinct, by cases statement.declared? <;> simp, ?_⟩
  rintro earlier before declaration declares rfl
  exact fresh earlier (by simpa using declares) before

theorem Accepted.nodup_declaredBy {accepted : List (Statement × Session Catalogue)}
    {input : List Lexeme} (chain : Accepted checks scope session accepted last)
    (here : session.At input) (enough : session.stream.ahead.length < scope.limit)
    (tallies : session.store.Tallies statements) (distinct : (declaredBy statements).Nodup) :
    (declaredBy (statements ++ accepted.map (·.1))).Nodup := by
  induction chain generalizing input statements with
  | none => simpa using distinct
  | more first wrote _ ih =>
    obtain ⟨writtenAt, shorter⟩ := first.written_at wrote here rfl
    have apart := nodup_declaredBy_concat distinct (first.declares_fresh wrote tallies)
    simpa using ih writtenAt (Nat.lt_trans shorter enough)
      (tallies.step first wrote here enough) apart

/-- The statements of a body are those of its pieces, one by one. Each of them is read again from
its piece if what is declared before it is listed. -/
theorem Accepted.restates {accepted : List (Statement × Session Catalogue)}
    {body : List (Statement × List Lexeme)} {left : List Lexeme}
    (chain : Accepted checks scope session accepted last)
    (close : Reads checks (Grammar.statement? scope) last Option.none closed)
    (states : ∀ piece ∈ body, States scope.prefixes piece) (closes : Closes closing left)
    (here : session.At (body.flatMap (·.2) ++ closing))
    (enough : session.stream.ahead.length < scope.limit)
    (tallies : session.store.Tallies statements) :
    List.Forall₂ SameContent (body.map (·.1)) (accepted.map (·.1)) ∧
      ∀ before piece others, body = before ++ piece :: others →
        Restates checks scope.prefixes session.store.policy
          (declaredBy (statements ++ before.map (·.1))) piece := by
  -- Both lists end together, since a statement starts with a word and the closing does not.
  induction chain generalizing body statements with
  | none =>
    cases body with
    | nil => exact ⟨.nil, by simp⟩
    | cons piece body =>
      rw [List.flatMap_cons, List.append_assoc] at here
      have closes := Recognition.statement?_spelled close here
      exact absurd closes ((states piece List.mem_cons_self).anywhere _).not_closes
  | @more statement others session read written last first wrote chain ih =>
    cases body with
    | nil =>
      obtain ⟨spelled, -⟩ := Recognition.statement?_spelled first here
      exact absurd closes spelled.not_closes
    | cons piece body =>
      have stated := states piece List.mem_cons_self
      rw [List.flatMap_cons, List.append_assoc] at here
      obtain ⟨same, ended⟩ := first.statement_piece stated here enough
      obtain ⟨writtenAt, shorter⟩ := first.written_at wrote here ended
      obtain ⟨alike, later⟩ := ih close
        (fun other member => states other (List.mem_cons_of_mem _ member)) writtenAt
        (Nat.lt_trans shorter enough) (tallies.step first wrote here enough)
      refine ⟨.cons same alike, ?_⟩
      intro before found others parts
      cases before with
      | nil =>
        obtain ⟨rfl, -⟩ := List.cons.inj parts
        simpa using first.restates stated here enough tallies
      | cons earlier before =>
        -- The catalogue tells of the statement as it was read, which declares what the piece does.
        obtain ⟨rfl, remains⟩ := List.cons.inj parts
        have restates := later before found others remains
        rwa [same.declaredBy_eq, first.written_policy wrote] at restates

end

end OwlFunctional
