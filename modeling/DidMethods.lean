import DidMethods.Action
import DidMethods.Bearer.Basic
import DidMethods.Bearer.Portable
import DidMethods.Curve.Edwards25519
import DidMethods.Curve.Modular
import DidMethods.Curve.Secp256k1
import DidMethods.Curve.X25519
import DidMethods.Decimal.Binary64
import DidMethods.Decimal.Notation
import DidMethods.Decimal.Shortest
import DidMethods.Did.Basic
import DidMethods.Did.Grammar
import DidMethods.Digest.ContentHash
import DidMethods.Digest.Hmac
import DidMethods.Digest.Sha2
import DidMethods.Document.Basic
import DidMethods.Document.Method
import DidMethods.Document.Purpose
import DidMethods.Document.Service
import DidMethods.Document.ServiceRules
import DidMethods.Document.Suite
import DidMethods.Fault
import DidMethods.Http.Client
import DidMethods.Http.Status
import DidMethods.IonMethod.Basic
import DidMethods.IonMethod.Create
import DidMethods.IonMethod.LongForm
import DidMethods.IonMethod.Resolve
import DidMethods.Json.Alternatives
import DidMethods.Json.Basic
import DidMethods.Json.Canonical
import DidMethods.Json.Printer
import DidMethods.Json.Reader
import DidMethods.Json.Record
import DidMethods.Json.Token
import DidMethods.Key.Algorithm
import DidMethods.Key.Jwk
import DidMethods.Key.Manager
import DidMethods.Key.Multikey
import DidMethods.Key.Pair
import DidMethods.Key.Verify
import DidMethods.KeyMethod.Create
import DidMethods.KeyMethod.Options
import DidMethods.KeyMethod.Resolve
import DidMethods.Multiformat.Multibase
import DidMethods.Multiformat.Multihash
import DidMethods.Multiformat.Radix
import DidMethods.Multiformat.Varint
import DidMethods.Resolution.Metadata
import DidMethods.Resolution.Result
import DidMethods.Resolver.Answer
import DidMethods.Resolver.Basic
import DidMethods.Resolver.Cache
import DidMethods.Resolver.Resource
import DidMethods.Resolver.Standard
import DidMethods.Sidetree.Entry
import DidMethods.Sidetree.InitialState
import DidMethods.Sidetree.Patch
import DidMethods.Sidetree.Request
import DidMethods.Sidetree.State
import DidMethods.Text.Base64Url
import DidMethods.Text.BitGroups
import DidMethods.Text.Blank
import DidMethods.Text.Bytes
import DidMethods.Text.Hex
import DidMethods.Text.Quoted
import DidMethods.Text.Runs
import DidMethods.Text.Split
import DidMethods.Text.Utf16
import DidMethods.Text.Utf8
import DidMethods.Time.Duration
import DidMethods.Time.Instant
import DidMethods.Url.Address
import DidMethods.Url.Basic
import DidMethods.Url.Domain
import DidMethods.Url.Host
import DidMethods.Url.Normal
import DidMethods.Url.Percent
import DidMethods.Url.Punycode
import DidMethods.Url.Repertoire
import DidMethods.Proofs.Base64Url
import DidMethods.Proofs.ContentHash
import DidMethods.Proofs.JsonOctets
import DidMethods.Proofs.JsonOrder
import DidMethods.Proofs.JsonRecord
import DidMethods.Proofs.SidetreeJson
import DidMethods.Proofs.JsonExact
import DidMethods.Proofs.DocumentJson
import DidMethods.Proofs.DidSyntax
import DidMethods.Proofs.LongForm
import DidMethods.Proofs.SelfCertification
import DidMethods.Proofs.Publish
import DidMethods.Proofs.Modular
import DidMethods.Proofs.Secp256k1
import DidMethods.Proofs.KeyIdentifier
import DidMethods.Proofs.MultikeyWord
import DidMethods.Proofs.Multikey
import DidMethods.Proofs.DidGrammar
import DidMethods.Proofs.KeyDocument
import DidMethods.Proofs.DocumentShape
import DidMethods.Proofs.DerivedKey
import DidMethods.Proofs.KeyNames
import DidMethods.Proofs.Relationships
import DidMethods.Proofs.StateCheck
import DidMethods.Proofs.StateSoundness
import DidMethods.Proofs.ConcurrentResolution
import DidMethods.Proofs.KeyPair
import DidMethods.Proofs.KeyCustody
import DidMethods.Proofs.Signing
import DidMethods.Proofs.HandingOver
import DidMethods.Proofs.ResolverRequests
import DidMethods.Proofs.SequentialResolution
import DidMethods.Proofs.DocumentOrError
import DidMethods.Proofs.Dereference
import DidMethods.Proofs.WireFormat
import DidMethods.Proofs.Patches
import DidMethods.Proofs.AcceptedInputs
import DidMethods.Proofs.PublicInputs
import DidMethods.Proofs.CanonicalJson
import DidMethods.Proofs.CanonicalKey
import DidMethods.Proofs.DocumentQueries
import DidMethods.Proofs.Submission
import DidMethods.Proofs.VerificationKey
import DidMethods.Proofs.PrivateMembers
import DidMethods.Proofs.Commitments
import DidMethods.Proofs.ServiceLookup
import DidMethods.Proofs.BareDid
import DidMethods.Proofs.DidParameters
