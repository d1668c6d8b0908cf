import OwlFunctional.Proofs.Progress
import OwlFunctional.Proofs.Recognition.Name
import OwlFunctional.Proofs.Spelling.Document

/-! What stands before the statements of a document, for any store: abbreviations and a header. -/

set_option autoImplicit false

namespace OwlFunctional

open Grammar

variable {σ : Type} [Store σ] {checks : Checks} {session after : Session σ}

def Sees (checks : Checks) (token : Token) (session after : Session σ) : Prop :=
  ∃ scanned between, Reads checks Reading.token session scanned between ∧
    scanned.token = token ∧ Reads checks Reading.unscan between () after

theorem Sees.length_le {token : Token} (sees : Sees checks token session after) :
    after.stream.ahead.length ≤ session.stream.ahead.length := by
  obtain ⟨scanned, between, scan, -, back⟩ := sees
  exact scan.unscan_length_le back

/-- Abbreviations that are read one after the other, after the given labels were bound. -/
inductive Binds (checks : Checks) : List String → Session σ → List Binding → Session σ → Prop where
  | none {labels : List String} {session : Session σ} : Binds checks labels session [] session
  | more {labels : List String} {binding : Binding} {others : List Binding}
      {session seen read last : Session σ} :
      Sees checks (.keyword .prefixBinding) session seen →
      Reads checks (prefixBinding labels) seen binding read →
      Binds checks (binding.label :: labels) read others last →
      Binds checks labels session (binding :: others) last

def Heads (checks : Checks) (prefixes : Prefixes) (session : Session σ) (ontology : Ontology)
    (after : Session σ) : Prop :=
  ∃ seen, Sees checks (.keyword .ontology) session seen ∧
    Reads checks (header prefixes) seen ontology after

theorem Reads.prefixBinding_parts {labels : List String} {binding : Binding}
    (read : Reads checks (prefixBinding labels) session binding after) :
    binding.label ∉ labels ∧ after.stream.ahead.length < session.stream.ahead.length := by
  obtain ⟨⟨first, label, space⟩, ended, enclosed, read⟩ := bind_iff.mp read
  dsimp only at read
  split at read
  · simp at read
  · next free =>
    obtain ⟨_, reported, report, read⟩ := bind_iff.mp read
    obtain rfl := report_iff.mp report
    obtain ⟨rfl, rfl⟩ := pure_iff.mp read
    exact ⟨by simpa using free, enclosed.enclosed_shorter⟩

theorem Binds.fresh {labels : List String} {bindings : List Binding}
    (binds : Binds checks labels session bindings after) :
    (∀ binding ∈ bindings, binding.label ∉ labels) ∧ (bindings.map (·.label)).Nodup := by
  induction binds with
  | none => simp
  | more sees read others ih =>
    obtain ⟨free, distinct⟩ := ih
    refine ⟨?_, ?_⟩
    · intro binding member
      rcases List.mem_cons.mp member with rfl | member
      · exact read.prefixBinding_parts.1
      · exact fun bound => free binding member (List.mem_cons_of_mem _ bound)
    · rw [List.map_cons, List.nodup_cons]
      refine ⟨fun member => ?_, distinct⟩
      obtain ⟨binding, member, same⟩ := List.mem_map.mp member
      exact free binding member (same ▸ List.mem_cons_self)

/-- The name of a version is read where an identifier in brackets follows. -/
inductive ReadsVersion (checks : Checks) (session : Session σ) : Option Iri → Session σ → Prop where
  | absent {next : Scanned} {after : Session σ} : Reads checks Reading.peek session next after →
      next.token ≠ .iri → ReadsVersion checks session none after
  | present {next again : Scanned} {peeked after : Session σ} {version : Iri} :
      Reads checks Reading.peek session next peeked → next.token = .iri →
      Reads checks Reading.token peeked again after → next.literal = version.render →
      checks.iri version.text = none → ReadsVersion checks session (some version) after

theorem announced_iff {prefixes : Prefixes} {iri : Iri} {version : Option Iri}
    {ontology : Ontology} :
    Reads checks (announced prefixes iri version) session ontology after ↔
      ⟨iri, version, prefixes⟩ = ontology ∧ session = after := by
  constructor
  · intro read
    obtain ⟨_, reported, report, read⟩ := Reads.bind_iff.mp read
    obtain rfl := Reads.report_iff.mp report
    exact Reads.pure_iff.mp read
  · rintro ⟨rfl, rfl⟩
    exact Reads.bind_iff.mpr ⟨(), session, Reads.report_iff.mpr rfl, Reads.pure_iff.mpr ⟨rfl, rfl⟩⟩

theorem versioned_iff {prefixes : Prefixes} {iri : Iri} {ontology : Ontology} :
    Reads checks (versioned prefixes iri) session ontology after ↔
      ∃ version, ReadsVersion checks session version after ∧ ⟨iri, version, prefixes⟩ = ontology := by
  constructor
  · intro read
    obtain ⟨next, peeked, look, read⟩ := Reads.bind_iff.mp read
    dsimp only at read
    split at read
    · next another =>
      obtain ⟨again, ended, consume, read⟩ := Reads.bind_iff.mp read
      obtain ⟨version, _, named, read⟩ := Reads.bind_iff.mp read
      obtain ⟨name, bracket, rfl⟩ := Reads.map_iff.mp named
      obtain ⟨spelled, allowed, rfl⟩ := Recognition.bracketedIri_iff.mp bracket
      obtain ⟨rfl, rfl⟩ := announced_iff.mp read
      exact ⟨some name, .present look another consume spelled allowed, rfl⟩
    · next single =>
      obtain ⟨version, _, absent, read⟩ := Reads.bind_iff.mp read
      obtain ⟨rfl, rfl⟩ := Reads.pure_iff.mp absent
      obtain ⟨rfl, rfl⟩ := announced_iff.mp read
      exact ⟨none, .absent look single, rfl⟩
  · rintro ⟨version, versioned, same⟩
    have ended : Reads checks (announced prefixes iri version) after ontology after :=
      announced_iff.mpr ⟨same, rfl⟩
    cases versioned with
    | absent look single =>
      refine Reads.bind_iff.mpr ⟨_, _, look, ?_⟩
      dsimp only
      rw [if_neg single]
      exact Reads.bind_iff.mpr ⟨none, after, Reads.pure_iff.mpr ⟨rfl, rfl⟩, ended⟩
    | @present next again peeked _ version look another consume spelled allowed =>
      have bracket : Reads checks (bracketedIri next) after version after :=
        Recognition.bracketedIri_iff.mpr ⟨spelled, allowed, rfl⟩
      refine Reads.bind_iff.mpr ⟨_, _, look, ?_⟩
      dsimp only
      rw [if_pos another]
      exact Reads.bind_iff.mpr ⟨_, _, consume, Reads.bind_iff.mpr ⟨_, after,
        Reads.map_iff.mpr ⟨_, bracket, rfl⟩, ended⟩⟩

theorem header_iff {prefixes : Prefixes} {ontology : Ontology} :
    Reads checks (header prefixes) session ontology after ↔
      ∃ named opened begun first, Reads checks (Reading.expect (.keyword .ontology)) session () named ∧
        Reads checks (Reading.expect .openParen) named () opened ∧
        Reads checks Reading.token opened first begun ∧ first.token = .iri ∧
        first.literal = ontology.iri.render ∧ checks.iri ontology.iri.text = none ∧
        ReadsVersion checks begun ontology.version after ∧ ontology.prefixes = prefixes := by
  constructor
  · intro read
    obtain ⟨_, opened, opening, read⟩ := Reads.bind_iff.mp read
    obtain ⟨named, word, paren⟩ := Reads.expectBoth_iff.mp (Reads.within_iff.mp opening)
    obtain ⟨first, begun, scan, read⟩ := Reads.bind_iff.mp read
    dsimp only at read
    split at read
    · next kind =>
      obtain ⟨iri, bracketed, bracket, read⟩ := Reads.bind_iff.mp read
      obtain ⟨written, passed, rfl⟩ := Recognition.bracketedIri_iff.mp bracket
      obtain ⟨version, versioned, rfl⟩ := versioned_iff.mp read
      exact ⟨named, opened, begun, first, word, paren, scan, kind, written, passed, versioned, rfl⟩
    · obtain ⟨_, _, failed, _⟩ := Reads.bind_iff.mp read
      simp at failed
  · rintro ⟨named, opened, begun, first, word, paren, scan, kind, written, passed, versioned, rfl⟩
    have opening := Reads.expectBoth_iff.mpr ⟨named, word, paren⟩
    have bracket : Reads checks (bracketedIri first) begun ontology.iri begun :=
      Recognition.bracketedIri_iff.mpr ⟨written, passed, rfl⟩
    refine Reads.bind_iff.mpr ⟨(), opened, Reads.within_iff.mpr opening, ?_⟩
    refine Reads.bind_iff.mpr ⟨first, begun, scan, ?_⟩
    dsimp only
    rw [if_pos kind]
    exact Reads.bind_iff.mpr ⟨ontology.iri, begun, bracket,
      versioned_iff.mpr ⟨ontology.version, versioned, rfl⟩⟩

theorem Heads.prefixes_eq {prefixes : Prefixes} {ontology : Ontology}
    (heads : Heads checks prefixes session ontology after) : ontology.prefixes = prefixes := by
  obtain ⟨seen, -, read⟩ := heads
  obtain ⟨named, opened, begun, first, -, -, -, -, -, -, -, same⟩ := header_iff.mp read
  exact same

/-- Everything up to the first statement falls into abbreviations and a header. -/
theorem preamble_iff {prefixes : Prefixes} {labels : List String} {limit : Nat}
    {ontology : Ontology} (enough : session.stream.ahead.length < limit) :
    Reads checks (preamble prefixes labels limit) session ontology after ↔
      ∃ bindings last, Binds checks labels session bindings last ∧
        Heads checks (prefixes.override bindings) last ontology after := by
  induction limit generalizing session prefixes labels with
  | zero => omega
  | succ limit ih =>
    constructor
    · intro read
      obtain ⟨next, between, scan, read⟩ := Reads.bind_iff.mp read
      split at read
      · next kind =>
        obtain ⟨_, seen, back, read⟩ := Reads.bind_iff.mp read
        obtain ⟨binding, bound, first, read⟩ := Reads.bind_iff.mp read
        have sees : Sees checks (.keyword .prefixBinding) session seen :=
          ⟨next, between, scan, kind, back⟩
        have first := Reads.within_iff.mp first
        -- An abbreviation takes lexemes, so one step of the bound pays for it.
        have fewer : bound.stream.ahead.length < limit := by
          have shorter := first.prefixBinding_parts.2
          have same := sees.length_le
          omega
        obtain ⟨bindings, last, others, heads⟩ := (ih fewer).mp read
        exact ⟨binding :: bindings, last, .more sees first others, heads⟩
      · next kind =>
        obtain ⟨_, seen, back, read⟩ := Reads.bind_iff.mp read
        exact ⟨[], session, .none, seen, ⟨next, between, scan, kind, back⟩, read⟩
      · simp at read
      · simp at read
    · rintro ⟨bindings, last, binds, heads⟩
      cases binds with
      | none =>
        obtain ⟨seen, ⟨next, between, scan, kind, back⟩, read⟩ := heads
        refine Reads.bind_iff.mpr ⟨next, between, scan, ?_⟩
        simp only [kind]
        exact Reads.bind_iff.mpr ⟨(), seen, back, read⟩
      | @more _ binding others _ seen bound _ sees first rest =>
        have fewer : bound.stream.ahead.length < limit := by
          have shorter := first.prefixBinding_parts.2
          have same := sees.length_le
          omega
        obtain ⟨next, between, scan, kind, back⟩ := sees
        refine Reads.bind_iff.mpr ⟨next, between, scan, ?_⟩
        simp only [kind]
        exact Reads.bind_iff.mpr ⟨(), seen, back, Reads.bind_iff.mpr
          ⟨binding, bound, Reads.within_iff.mpr first, (ih fewer).mpr ⟨others, last, rest, heads⟩⟩⟩

end OwlFunctional
