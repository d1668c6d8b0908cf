import OwlFunctional.Axiom
import OwlFunctional.BlankLabel
import OwlFunctional.Catalogue
import OwlFunctional.Characteristic
import OwlFunctional.CommandLine
import OwlFunctional.Connective
import OwlFunctional.Document
import OwlFunctional.Entity
import OwlFunctional.Event
import OwlFunctional.Expression
import OwlFunctional.Grammar.Document
import OwlFunctional.Grammar.Expression
import OwlFunctional.Grammar.Literal
import OwlFunctional.Grammar.Name
import OwlFunctional.Grammar.Statement
import OwlFunctional.Input
import OwlFunctional.Iri
import OwlFunctional.Iri.Address
import OwlFunctional.Iri.Reference
import OwlFunctional.LanguageTag
import OwlFunctional.Lexeme
import OwlFunctional.Literal
import OwlFunctional.Main
import OwlFunctional.Ontology
import OwlFunctional.Ordered
import OwlFunctional.Position
import OwlFunctional.Prefixes
import OwlFunctional.Program
import OwlFunctional.Proofs.Acceptance.Document
import OwlFunctional.Proofs.Acceptance.Expression
import OwlFunctional.Proofs.Acceptance.Literal
import OwlFunctional.Proofs.Acceptance.Name
import OwlFunctional.Proofs.Acceptance.Statement
import OwlFunctional.Proofs.Advance
import OwlFunctional.Proofs.Balance
import OwlFunctional.Proofs.Bounds
import OwlFunctional.Proofs.Characteristics
import OwlFunctional.Proofs.ClassGrammar
import OwlFunctional.Proofs.Composition
import OwlFunctional.Proofs.Consistency
import OwlFunctional.Proofs.Continuation
import OwlFunctional.Proofs.Cursor
import OwlFunctional.Proofs.Cutting
import OwlFunctional.Proofs.Decoding
import OwlFunctional.Proofs.Drafts
import OwlFunctional.Proofs.Entities
import OwlFunctional.Proofs.Exactness
import OwlFunctional.Proofs.Faults
import OwlFunctional.Proofs.Gaps
import OwlFunctional.Proofs.Growth
import OwlFunctional.Proofs.History
import OwlFunctional.Proofs.History.Characteristics
import OwlFunctional.Proofs.Identifier
import OwlFunctional.Proofs.LanguageTags
import OwlFunctional.Proofs.Layout
import OwlFunctional.Proofs.LineEnds
import OwlFunctional.Proofs.Literals
import OwlFunctional.Proofs.Locality
import OwlFunctional.Proofs.Lookups
import OwlFunctional.Proofs.Numerals
import OwlFunctional.Proofs.Partition
import OwlFunctional.Proofs.Parts
import OwlFunctional.Proofs.Policies
import OwlFunctional.Proofs.Positions
import OwlFunctional.Proofs.Preamble
import OwlFunctional.Proofs.Printing.Document
import OwlFunctional.Proofs.Printing.Expression
import OwlFunctional.Proofs.Printing.Lexeme
import OwlFunctional.Proofs.Printing.Literal
import OwlFunctional.Proofs.Printing.Name
import OwlFunctional.Proofs.Printing.Names
import OwlFunctional.Proofs.Printing.Reference
import OwlFunctional.Proofs.Printing.Statement
import OwlFunctional.Proofs.Progress
import OwlFunctional.Proofs.Recognition.Document
import OwlFunctional.Proofs.Recognition.Expression
import OwlFunctional.Proofs.Recognition.Literal
import OwlFunctional.Proofs.Recognition.Name
import OwlFunctional.Proofs.Recognition.Statement
import OwlFunctional.Proofs.References
import OwlFunctional.Proofs.Reordering
import OwlFunctional.Proofs.Replay
import OwlFunctional.Proofs.Requests
import OwlFunctional.Proofs.Reserved
import OwlFunctional.Proofs.Respelling
import OwlFunctional.Proofs.Respelling.Document
import OwlFunctional.Proofs.Restrictions
import OwlFunctional.Proofs.RoundTrip
import OwlFunctional.Proofs.Run
import OwlFunctional.Proofs.Scanning
import OwlFunctional.Proofs.Spelling
import OwlFunctional.Proofs.Spelling.Document
import OwlFunctional.Proofs.Statements
import OwlFunctional.Proofs.Stepping
import OwlFunctional.Proofs.Subtags
import OwlFunctional.Proofs.Termination
import OwlFunctional.Proofs.Uniformity
import OwlFunctional.Proofs.Uniformity.Grammar
import OwlFunctional.Proofs.Uses
import OwlFunctional.Proofs.Utf8
import OwlFunctional.Proofs.Validation
import OwlFunctional.Proofs.Validation.Grammar
import OwlFunctional.Proofs.Values
import OwlFunctional.Proofs.Values.Stored
import OwlFunctional.Proofs.Writes
import OwlFunctional.Reading
import OwlFunctional.Recorder
import OwlFunctional.Store
import OwlFunctional.Stream
import OwlFunctional.Stream.Log
import OwlFunctional.SyntaxError
import OwlFunctional.Text.Letter
import OwlFunctional.Text.Numeral
import OwlFunctional.Text.Quoted
import OwlFunctional.Text.Utf8
import OwlFunctional.Token
import OwlFunctional.Vocabulary
