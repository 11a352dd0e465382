import TreeShell.Json.Reader
import TreeShell.Connection.Session
import TreeShell.Launch.Listener
import TreeShell.Launch.Plan
import TreeShell.Web.Server
import TreeShell.Main
import TreeShell.Proofs.Store.Refinement
import TreeShell.Proofs.Key.Addresses
import TreeShell.Proofs.Confidentiality
import TreeShell.Proofs.PasswordIntegrity
import TreeShell.Proofs.ProtectedDestination
import TreeShell.Proofs.Confinement
import TreeShell.Proofs.UniformGate
import TreeShell.Proofs.PasswordLifetime
import TreeShell.Proofs.Pipeline.Interleaved
import TreeShell.Proofs.Store.Orderly
import TreeShell.Proofs.ListedNames
import TreeShell.Proofs.Placeholder
import TreeShell.Proofs.Pipeline.Bans
import TreeShell.Proofs.Chat.Lines
import TreeShell.Proofs.Chat.SameBut
import TreeShell.Proofs.ElevationConfinement
import TreeShell.Proofs.BannedIdentity
import TreeShell.Proofs.AuditTrail
import TreeShell.Proofs.PasswordsUnderFaults
import TreeShell.Proofs.PromptSoundness
import TreeShell.Proofs.SessionIsolation
import TreeShell.Proofs.FaultContainment
import TreeShell.Proofs.ConsoleCredentials
import TreeShell.Proofs.SessionRows
import TreeShell.Proofs.ConnectionCleanup
import TreeShell.Proofs.ExactMove
import TreeShell.Proofs.RemovalCleanup
import TreeShell.Proofs.ReadBack
import TreeShell.Proofs.RefusedCommands
import TreeShell.Proofs.MoveUnderFaults
import TreeShell.Proofs.RememberedDirectory
import TreeShell.Proofs.ElevationDetection
import TreeShell.Proofs.ElevationPassword
import TreeShell.Proofs.Redirection
import TreeShell.Proofs.EchoFilter
import TreeShell.Proofs.BoundedDialogue
import TreeShell.Proofs.LineReading
import TreeShell.Proofs.EditedText
import TreeShell.Proofs.SubtreeWalk
import TreeShell.Proofs.PasswordMap
import TreeShell.Proofs.ExactBans
import TreeShell.Proofs.EscapedForms
import TreeShell.Proofs.AuditReports
import TreeShell.Proofs.LogRecords
import TreeShell.Proofs.RemoteRequests
import TreeShell.Proofs.Path.Ascent
import TreeShell.Proofs.Spellings
