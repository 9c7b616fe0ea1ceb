import KKTerm.VtText.PlainText
import KKTerm.VtText.WidePairs
import KKTerm.Telnet.WindowSize
import KKTerm.Telnet.InputEncoding
import KKTerm.Telnet.LoginPrompt
import KKTerm.Watchdog.Registry
import KKTerm.Watchdog.Suppression
import KKTerm.Watchdog.SustainedWindow
import KKTerm.Watchdog.CronFires
import KKTerm.ItOps.RoomMembership
import KKTerm.Workspace.StoredLayout
import KKTerm.Ai.StreamReader
import KKTerm.Ai.StreamedAnswer
import KKTerm.Ipam.FreeAddresses
import KKTerm.Ipam.ClaimCandidates
import KKTerm.Ipam.ImportAgreement
import KKTerm.Ssh.FirstObtained
import KKTerm.Net.ElevatedScript
import KKTerm.Net.MacosScript
import KKTerm.ItOps.HostImport
import KKTerm.ItOps.HostTree
import KKTerm.ItOps.RoomSettling
import KKTerm.Connections.Trees
import KKTerm.Widgets.SettingsAgreement
import KKTerm.Dashboard.Frame
import KKTerm.CustomModules.HostAiStream
import KKTerm.CustomModules.CatalogHistory
import KKTerm.Import.Csv
import KKTerm.Import.BookmarkTree
import KKTerm.Import.Putty
import KKTerm.Import.RdcmanRoundTrip
import KKTerm.CustomModules.InterruptedInstall
import KKTerm.Secrets.Vault
import KKTerm.CustomModules.ContentSharing
import KKTerm.SystemCleaner.Cancellation
import KKTerm.SystemCleaner.ScanExact
import KKTerm.SystemCleaner.Recipes
import KKTerm.FlatJson.Crashes
import KKTerm.Ssh.RemoteCommand
import KKTerm.Sftp.Confinement
import KKTerm.Sftp.FailedDownload
import KKTerm.Sftp.Transfers
import KKTerm.Ssh.WindowSize
import KKTerm.Ssh.Prompts
import KKTerm.Ssh.HostKeyPins
import KKTerm.UiState.Convergence
import KKTerm.LocalFiles.CompareExact
import KKTerm.Installer.InstallPlan
import KKTerm.UiState.Flush
import KKTerm.Installer.VersionDefects
import KKTerm.Connections.Copies
import KKTerm.Connections.MoveOrder
import KKTerm.Widgets.MountTargets
import KKTerm.Widgets.ForbiddenLoops
import KKTerm.ItOps.NetworkProjection
import KKTerm.ItOps.RackPreview
import KKTerm.Workspace.LocalShell
import KKTerm.Workspace.PasswordOffers
import KKTerm.Git.Lanes
import KKTerm.Ai.ToolCallReassembly
import KKTerm.Assistant.StreamMessage
import KKTerm.Notes.NoteSearch
import KKTerm.Ipam.CidrPreview
