import OpenBioUnlock.Machine.Run
import OpenBioUnlock.Machine.OneTime
import OpenBioUnlock.Machine.Forgetful
import OpenBioUnlock.Machine.Hysteresis
import OpenBioUnlock.Codec.Hex
import OpenBioUnlock.Codec.Lines
import OpenBioUnlock.Codec.Frames
import OpenBioUnlock.Codec.Utf8
import OpenBioUnlock.Codec.Json
import OpenBioUnlock.Codec.JsonText
import OpenBioUnlock.Codec.Base64
import OpenBioUnlock.Desktop.Qt
import OpenBioUnlock.Desktop.Crypto
import OpenBioUnlock.Desktop.Server
import OpenBioUnlock.Desktop.ServerSteps
import OpenBioUnlock.Desktop.Pairing
import OpenBioUnlock.Desktop.Framing
import OpenBioUnlock.Desktop.Conversation
import OpenBioUnlock.Desktop.Challenge
import OpenBioUnlock.Desktop.KeyState
import OpenBioUnlock.Desktop.Replay
import OpenBioUnlock.Daemon.Crypto
import OpenBioUnlock.Daemon.Store
import OpenBioUnlock.Daemon.Server
import OpenBioUnlock.Daemon.ServerSteps
import OpenBioUnlock.Daemon.Ledgers
import OpenBioUnlock.Daemon.Authorization
import OpenBioUnlock.Daemon.Approval
import OpenBioUnlock.Daemon.Isolation
import OpenBioUnlock.Daemon.Challenges
import OpenBioUnlock.Daemon.Conversation
import OpenBioUnlock.Daemon.Rest
import OpenBioUnlock.Daemon.Vault
import OpenBioUnlock.Daemon.Pairings
import OpenBioUnlock.Daemon.PairingGate
import OpenBioUnlock.Daemon.Grammar
import OpenBioUnlock.Daemon.KeyList
import OpenBioUnlock.Pam.Authenticate
import OpenBioUnlock.Pam.Encoding
import OpenBioUnlock.Windows.Hresult
import OpenBioUnlock.Windows.CredentialProvider
import OpenBioUnlock.Windows.Module
import OpenBioUnlock.Windows.Lifetime
import OpenBioUnlock.Mobile.Dart
import OpenBioUnlock.Mobile.CryptoService
import OpenBioUnlock.Mobile.ReadLine
import OpenBioUnlock.Mobile.Identity
import OpenBioUnlock.Mobile.OneIdentity
import OpenBioUnlock.Interop.Envelope
import OpenBioUnlock.Interop.Channel
import OpenBioUnlock.Interop.Verifiers
import OpenBioUnlock.Desktop.Evp
import OpenBioUnlock.Desktop.Tokens
import OpenBioUnlock.Desktop.Credential
import OpenBioUnlock.Desktop.Endpoint
import OpenBioUnlock.Desktop.Announcing
import OpenBioUnlock.Mobile.Signing
import OpenBioUnlock.Interop.SignedPayload
import OpenBioUnlock.Interop.LoginAdapters
import OpenBioUnlock.Interop.Replies
import OpenBioUnlock.Interop.QrPayload
import OpenBioUnlock.Mobile.BleService
import OpenBioUnlock.Mobile.Proximity
import OpenBioUnlock.Mobile.ScanCycle
import OpenBioUnlock.Mobile.ProximitySwitch
import OpenBioUnlock.Desktop.MainWindow
import OpenBioUnlock.Desktop.Application
import OpenBioUnlock.Interop.Proximity
import OpenBioUnlock.Windows.References
import OpenBioUnlock.Mobile.HexText
import OpenBioUnlock.Pam.Reader
import OpenBioUnlock.Pam.Writer
import OpenBioUnlock.Pam.Process
import OpenBioUnlock.Mobile.PairFromQr
import OpenBioUnlock.Interop.Pairing
import OpenBioUnlock.Interop.Login
import OpenBioUnlock.Mobile.Biometric
