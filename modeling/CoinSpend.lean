import CoinSpend.Bytes.Lemmas
import CoinSpend.Limits.Document
import CoinSpend.Session
import CoinSpend.Transaction.Inspection
import CoinSpend.Transaction.Summary
import CoinSpend.Verification.Log
import CoinSpend.Proofs.CompactSize
import CoinSpend.Proofs.Transaction.Codec
import CoinSpend.Proofs.Transaction.RoundTrip
import CoinSpend.Proofs.Outcome
import CoinSpend.Proofs.Transaction.Commitment
import CoinSpend.Proofs.Verification.Authorization
import CoinSpend.Proofs.ScriptCode
import CoinSpend.Proofs.Verification.Verdict
import CoinSpend.Proofs.Verification.Run
import CoinSpend.Proofs.Verification.Source
import CoinSpend.Proofs.Verification.Isolation
import CoinSpend.Proofs.Transaction.Preimage
import CoinSpend.Proofs.Transaction.Limits
import CoinSpend.Proofs.PublicKey
import CoinSpend.Proofs.UnlockingScript
import CoinSpend.Proofs.Secp256k1.Field
import CoinSpend.Proofs.Secp256k1.Point
import CoinSpend.Proofs.Secp256k1.Signature
import CoinSpend.Proofs.Verification.Meaning
import CoinSpend.Proofs.CompactSize.Canonical
import CoinSpend.Proofs.Decoder.Extension
import CoinSpend.Proofs.Transaction.Extension
import CoinSpend.Proofs.Decoder.Segments
import CoinSpend.Proofs.Transaction.Layout
import CoinSpend.Proofs.Hex
import CoinSpend.Proofs.Text
import CoinSpend.Proofs.Transaction.Text
import CoinSpend.Proofs.CompactSize.Stream
import CoinSpend.Proofs.Verification.Keys
import CoinSpend.Proofs.Secp256k1.Der
import CoinSpend.Proofs.Secp256k1.LowForm
import CoinSpend.Proofs.Verification.Equation
import CoinSpend.Proofs.Transaction.Length
import CoinSpend.Proofs.Decoder.Loop
import CoinSpend.Proofs.Transaction.Counts
import CoinSpend.Proofs.Json.Indented
import CoinSpend.Proofs.Transaction.Inspection
import CoinSpend.Proofs.Limits.Lexeme
import CoinSpend.Proofs.Limits.Token
import CoinSpend.Proofs.Limits.Value
import CoinSpend.Proofs.Limits.Settings
import CoinSpend.Proofs.Limits.Document
import CoinSpend.Proofs.Decoder.Execution
import CoinSpend.Proofs.Decoder.Bounds
