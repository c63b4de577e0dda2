import Dovetail.MonotoneFormula
import Dovetail.RequirementStrength
import Dovetail.CursorReader
import Dovetail.PrefixCode
import Dovetail.RequirementBlob
import Dovetail.RequirementGrammar
import Dovetail.TransitionRun
import Dovetail.PrivilegedChannel
import Dovetail.PrivilegedHandshake
import Dovetail.PrivilegedConnection
import Dovetail.PrivilegedConversation
import Dovetail.PrivilegedSession
import Dovetail.PrivilegedAnswers
import Dovetail.PrivilegedAgreement
import Dovetail.PrivilegedWire
import Dovetail.CodeUnits
import Dovetail.Base64
import Dovetail.JsonDocument
import Dovetail.JsonCompact
import Dovetail.FallibleSteps
import Dovetail.FallibleDisk
import Dovetail.UpdaterMinisign
import Dovetail.UpdaterManifest
import Dovetail.UpdaterManifestWriter
import Dovetail.OrderedSearch
import Dovetail.UpdaterFlow
import Dovetail.UpdaterFallback
import Dovetail.UpdaterReplay
import Dovetail.CliManifestProbe
import Dovetail.CliRelease
import Dovetail.UpdaterInstallers
import Dovetail.KeyValueStore
import Dovetail.ShortcutRegistry
import Dovetail.ShortcutSurface
import Dovetail.PathForest
import Dovetail.WixText
import Dovetail.MsiComponentTree
import Dovetail.WixRendering
import Dovetail.ShellScript
import Dovetail.PurgePaths
import Dovetail.LinuxServiceScripts
import Dovetail.MacosServiceScripts
import Dovetail.CommandOptions
import Dovetail.SuppliedSteps
import Dovetail.SignerPolicy
import Dovetail.BundleNames
import Dovetail.CliBundle
import Dovetail.CliShipPlan
import Dovetail.CliShipNames
import Dovetail.CliShipBundling
import Dovetail.CliShipSteps
import Dovetail.CliShipSupply
import Dovetail.HttpClient
import Dovetail.HttpRetries
import Dovetail.HttpRefresh
import Dovetail.LengthDelimited
import Dovetail.PrivilegedFraming
import Dovetail.PrivilegedAcceptLoop
import Dovetail.SingleInstance
import Dovetail.LaunchPayload
import Dovetail.ScreenGeometry
import Dovetail.PanelSurface
import Dovetail.WindowKeeper
import Dovetail.CliDoctor
import Dovetail.CliSign
import Dovetail.CliShipSigning
import Dovetail.CliProbeReport
import Dovetail.GregorianCalendar
import Dovetail.UpdaterPublication
import Dovetail.CliSdkChannel
import Dovetail.CliSelfUpdate
import Dovetail.UniversalBundle
import Dovetail.UrlPaths
import Dovetail.UpdaterFileName
import Dovetail.BundleVersions
import Dovetail.InstallerSpec
import Dovetail.MarkupText
import Dovetail.MsiSources
import Dovetail.MsiBackends
import Dovetail.NsisScript
import Dovetail.NsisUninstall
import Dovetail.LinuxPayloads
import Dovetail.StagedPlaces
import Dovetail.CliShipOneGroup
import Dovetail.QuotedCommands
import Dovetail.UpdaterArtifactFetcher
import Dovetail.UpdaterSignatureFile
import Dovetail.UpdaterSwapScript
import Dovetail.ArgumentVectors
import Dovetail.CliArtifactArguments
import Dovetail.CliVersionOrder
import Dovetail.MsiCommandLine
import Dovetail.MsiComponentGuid
import Dovetail.XmlText
import Dovetail.DaemonPlists
import Dovetail.CommonArchives
import Dovetail.DaemonEmbedder
import Dovetail.DebArchives
import Dovetail.UnitFiles
import Dovetail.UnitValues
import Dovetail.SystemdUnits
import Dovetail.SystemdUnitReadings
import Dovetail.PolkitPolicy
import Dovetail.HttpLists
import Dovetail.NsisEscapes
import Dovetail.ShortcutSpelling
import Dovetail.ShortcutBypass
import Dovetail.ByteWords
import Dovetail.IconContainers
import Dovetail.MachOHeaders
import Dovetail.MultipartForm
import Dovetail.MultipartUpload
import Dovetail.RouteRedaction
import Dovetail.SignOrder
import Dovetail.SignerMacos
import Dovetail.NestedEntitlements
import Dovetail.AppLog
import Dovetail.HelperWatch
import Dovetail.SystemProcessRunner
import Dovetail.CliScaffold
import Dovetail.MsiStagedTexts
import Dovetail.PositionalScripts
import Dovetail.PowerShellCommands
import Dovetail.RelaunchCommand
import Dovetail.UpdaterScratch
import Dovetail.KeyFiles
import Dovetail.LaunchCommands
import Dovetail.LinuxLaunchers
import Dovetail.FormPastDate
import Dovetail.KeyedContents
import Dovetail.PumpTable
import Dovetail.XpcStream
import Dovetail.LogLines
import Dovetail.ShortcutPump
import Dovetail.WindowsInstanceLaunches
import Dovetail.DebControl
import Dovetail.PrivilegedDaemon
import Dovetail.WindowsServiceRun
import Dovetail.MsiSourceReadings
