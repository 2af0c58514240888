import EsphomeApi.Library.Leb128
import EsphomeApi.Library.ZigZag
import EsphomeApi.Library.Consume
import EsphomeApi.Library.StreamDecoder
import EsphomeApi.Library.GuardedRun
import EsphomeApi.Library.Loop
import EsphomeApi.Library.EventLog
import EsphomeApi.Library.NumberedLog
import EsphomeApi.Exception
import EsphomeApi.Bytes
import EsphomeApi.Crypto.Base64
import EsphomeApi.Crypto.NoiseHandshake
import EsphomeApi.Crypto.SessionAgreement
import EsphomeApi.Crypto.AuthenticatedStream
import EsphomeApi.Frame.FrameHelper
import EsphomeApi.Frame.PlaintextTheorems
import EsphomeApi.Frame.Noise
import EsphomeApi.Frame.NoiseTheorems
import EsphomeApi.Frame.Helpers
import EsphomeApi.Frame.NoiseReassembly
import EsphomeApi.Frame.NoiseGate
import EsphomeApi.Frame.NoiseCapacity
import EsphomeApi.Proto.Wire
import EsphomeApi.Proto.WireTheorems
import EsphomeApi.Proto.Schema
import EsphomeApi.Proto.Codec
import EsphomeApi.Proto.CodecTheorems
import EsphomeApi.Proto.RoundTrip
import EsphomeApi.Proto.Canonical
import EsphomeApi.Proto.Concatenation
import EsphomeApi.Proto.Serialize
import EsphomeApi.Proto.Grammar
import EsphomeApi.Proto.GrammarTheorems
import EsphomeApi.Model.EntityType
import EsphomeApi.Model.EntityStoreTheorems
import EsphomeApi.Model.StoreInterleaving
import EsphomeApi.Model.CommandRequests
import EsphomeApi.Model.Commands
import EsphomeApi.Model.EntityHandles
import EsphomeApi.Connection.Message
import EsphomeApi.Connection.Machine
import EsphomeApi.Connection.Moves
import EsphomeApi.Connection.Acts
import EsphomeApi.Connection.Completion
import EsphomeApi.Connection.Greetings
import EsphomeApi.Connection.HelloGate
import EsphomeApi.Connection.Terminal
import EsphomeApi.Connection.Dispatch
import EsphomeApi.Transport.WriteOrder
import EsphomeApi.Connection.OutgoingOrder
import EsphomeApi.Connection.Timers
import EsphomeApi.Connection.Keepalive
import EsphomeApi.Connection.KeepaliveRuns
import EsphomeApi.Client.SyncClient
import EsphomeApi.Client.Cleanup
import EsphomeApi.Model.CommandAddress
import EsphomeApi.Model.RegistryLookup
import EsphomeApi.Connection.Alike
import EsphomeApi.Transport.Resumption
import EsphomeApi.Connection.Restart
import EsphomeApi.Subsystems.BluetoothProxy
import EsphomeApi.Subsystems.GattTables
import EsphomeApi.Subsystems.GattMoves
import EsphomeApi.Subsystems.GattAnswers
import EsphomeApi.Subsystems.GattDiscovery
import EsphomeApi.Subsystems.GattConservation
import EsphomeApi.Crypto.Base64Theorems
import EsphomeApi.Discovery.Packet
import EsphomeApi.Discovery.Instances
import EsphomeApi.Discovery.PacketOrder
import EsphomeApi.Transport.AsioExecutor
import EsphomeApi.Subsystems.ModemPins
import EsphomeApi.Connection.LiveSession
import EsphomeApi.Proto.Records
import EsphomeApi.Proto.UnknownFields
import EsphomeApi.Proto.PackedRuns
import EsphomeApi.Model.CommandPresence
import EsphomeApi.Discovery.PacketBounds
import EsphomeApi.Cli.Glob
import EsphomeApi.Library.Strtol
import EsphomeApi.Cli.ParseNumbers
import EsphomeApi.Proto.Reader
import EsphomeApi.Proto.ReaderBounds
import EsphomeApi.Proto.ReaderRefinement
import EsphomeApi.Library.LittleEndian
import EsphomeApi.Library.BlockStream
import EsphomeApi.Crypto.ChaCha20
import EsphomeApi.Crypto.Poly1305
import EsphomeApi.Crypto.Poly1305Limbs
import EsphomeApi.Crypto.Poly1305Theorems
import EsphomeApi.Crypto.Aead
import EsphomeApi.Library.PrimeCertificate
import EsphomeApi.Library.MontgomeryLadder
import EsphomeApi.Library.SignedWord
import EsphomeApi.Crypto.X25519
import EsphomeApi.Crypto.Curve25519
import EsphomeApi.Crypto.X25519Limbs
import EsphomeApi.Crypto.X25519Packing
import EsphomeApi.Crypto.X25519Theorems
import EsphomeApi.Crypto.Sha256
import EsphomeApi.Crypto.Sha256Theorems
import EsphomeApi.Crypto.ReferencePrimitives
import EsphomeApi.Library.PolynomialHash
import EsphomeApi.Crypto.Poly1305Forgery
import EsphomeApi.Library.TokenParser
import EsphomeApi.Protogen.Lexer
import EsphomeApi.Protogen.LexerTheorems
import EsphomeApi.Protogen.Parser
import EsphomeApi.Protogen.ParserSafety
import EsphomeApi.Library.CheckedMap
import EsphomeApi.Protogen.Resolve
import EsphomeApi.Protogen.Registry
import EsphomeApi.Protogen.Generator
import EsphomeApi.Protogen.Classes
import EsphomeApi.Library.Nesting
import EsphomeApi.Protogen.Grammar
import EsphomeApi.Protogen.GrammarTheorems
