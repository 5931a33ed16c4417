import SignedDirectory.Directory
import SignedDirectory.Main
import SignedDirectory.Proofs.Success
import SignedDirectory.Proofs.Token.Canonical
import SignedDirectory.Proofs.SortedMap.Membership
import SignedDirectory.Proofs.Verification.Acceptance
import SignedDirectory.Proofs.Digest.Bits
import SignedDirectory.Proofs.Trie.Canonical
import SignedDirectory.Proofs.Trie.Update
import SignedDirectory.Proofs.Trie.Prediction
import SignedDirectory.Proofs.AuditPath.Inputs
import SignedDirectory.Proofs.AuditPath.Inclusion
import SignedDirectory.Proofs.AuditPath.Absence
import SignedDirectory.Proofs.Trie.Refinement
import SignedDirectory.Proofs.Trie.Commitment
import SignedDirectory.Proofs.Directory.Completeness
import SignedDirectory.Proofs.AuditPath.Tampering
import SignedDirectory.Proofs.Record.Message
import SignedDirectory.Proofs.Token.Refusal
import SignedDirectory.Proofs.Token.Kinds
import SignedDirectory.Proofs.Json.Text
import SignedDirectory.Proofs.Json.Typed
import SignedDirectory.Proofs.Wire.RoundTrip
import SignedDirectory.Proofs.Config.Validation
import SignedDirectory.Proofs.Text.ByteOrder
import SignedDirectory.Proofs.Verification.Composition
import SignedDirectory.Proofs.AuditPath.Siblings
import SignedDirectory.Proofs.Wire.Siblings
import SignedDirectory.Proofs.Config.Expansion
import SignedDirectory.Proofs.Toml.Steps
import SignedDirectory.Proofs.Toml.Extension
import SignedDirectory.Proofs.Config.Scanning
import SignedDirectory.Proofs.Config.Comments
import SignedDirectory.Proofs.AuditPath.Forms
import SignedDirectory.Proofs.Trie.Pair
import SignedDirectory.Proofs.Wire.Slots
import SignedDirectory.Proofs.Digest.Addressing
import SignedDirectory.Proofs.Token.Order
import SignedDirectory.Proofs.Verification.Order
import SignedDirectory.Proofs.Trie.Bounds
