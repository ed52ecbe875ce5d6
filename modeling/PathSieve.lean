import PathSieve.Decision
import PathSieve.Json.Grammar
import PathSieve.Json.Printer
import PathSieve.Json.Reader
import PathSieve.Listing
import PathSieve.Listing.Trace
import PathSieve.Mask
import PathSieve.Mask.Backtracking
import PathSieve.Mask.Language
import PathSieve.OrderedSet
import PathSieve.Phrase
import PathSieve.PhraseFile
import PathSieve.Platform
import PathSieve.Proofs.Admission
import PathSieve.Proofs.Agreement
import PathSieve.Proofs.Anchoring
import PathSieve.Proofs.AnyDepth
import PathSieve.Proofs.Assembly
import PathSieve.Proofs.Canonical
import PathSieve.Proofs.Compilation
import PathSieve.Proofs.Consultation
import PathSieve.Proofs.Continuation
import PathSieve.Proofs.Decoding
import PathSieve.Proofs.Encoding
import PathSieve.Proofs.Exactness
import PathSieve.Proofs.Exclusion
import PathSieve.Proofs.Extension
import PathSieve.Proofs.FolderMasks
import PathSieve.Proofs.Folding
import PathSieve.Proofs.History
import PathSieve.Proofs.JsonReading
import PathSieve.Proofs.Judgement
import PathSieve.Proofs.Layout
import PathSieve.Proofs.MaskLog
import PathSieve.Proofs.Matching
import PathSieve.Proofs.Meet
import PathSieve.Proofs.PastedPath
import PathSieve.Proofs.Projection
import PathSieve.Proofs.Pruning
import PathSieve.Proofs.Respelling
import PathSieve.Proofs.SameSpelling
import PathSieve.Proofs.Slashes
import PathSieve.Proofs.Sorting
import PathSieve.Proofs.Spelling
import PathSieve.Proofs.Splitting
import PathSieve.Proofs.StoredSettings
import PathSieve.Proofs.Synonyms
import PathSieve.Proofs.Traversal
import PathSieve.Proofs.Union
import PathSieve.Proofs.Unrestricted
import PathSieve.Proofs.WrittenForm
import PathSieve.Record
import PathSieve.Record.Json
import PathSieve.Rules
import PathSieve.Scope
import PathSieve.Selection
import PathSieve.Settings
import PathSieve.Sieve
import PathSieve.Sieve.Order
import PathSieve.Sieve.Trace
import PathSieve.Text.Basic
import PathSieve.Text.Blank
import PathSieve.Text.Uppercase
import PathSieve.Text.Utf8
import PathSieve.Trace
import PathSieve.Verdict
